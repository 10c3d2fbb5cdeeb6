import VelumOS.Spec.Interpreter
import VelumOS.Spec.ParserState
import VelumOS.Spec.ParserFunctions
import VelumOS.Guarantees.CompiledCode

/-!
# What the module parser accepts

`m3_ParseModule` accepts a header followed by sections that stand in order, each at most
once, with custom sections anywhere. No octet belongs to two sections or to none, and the
module is what the parsers of the sections make of their contents, one after another. It
refers to nothing that is not there. A module of functions is read back whole, its
functions are found under the names that they keep, and compiled they do what their bodies
mean.
-/
namespace VelumOS.Guarantees.ModuleParsing
open Base.Leb128 Base.Formats Base.Wasm Base.WasmModule Source.M3 Source.M3.Compilation
open Spec Spec.Readers Spec.Compiler Spec.Parser CompiledCode

theorem sections_separate : Separates sectionOctets := by
  rintro ⟨number, payload⟩ ⟨number', payload'⟩ _ _ rest rest'
    ⟨id, size, -, same, sized, rfl⟩ ⟨id', size', -, same', sized', rfl⟩ whole
  dsimp only at same sized same' sized'
  obtain ⟨rfl, behind⟩ := List.cons.inj whole
  change (size ++ payload) ++ rest = (size' ++ payload') ++ rest' at behind
  rw [List.append_assoc, List.append_assoc] at behind
  obtain ⟨value, read, length⟩ := read_u32 sized (payload ++ rest)
  obtain ⟨value', read', length'⟩ := read_u32 sized' (payload' ++ rest')
  rw [behind, read'] at read
  obtain ⟨rfl, contents⟩ := Prod.mk.inj (Except.ok.inj read)
  obtain ⟨rfl, rfl⟩ := List.append_inj contents (length'.symm.trans length)
  rw [← same, ← same']
  exact ⟨rfl, rfl⟩

/-- A binary is a header and sections in at most one way. -/
theorem moduleOctets_unique {sections sections' : List Section} {binary : List UInt8}
    (whole : moduleOctets sections binary) (whole' : moduleOctets sections' binary) :
    sections = sections' := by
  obtain ⟨octets, each, rfl⟩ := whole
  obtain ⟨octets', each', same⟩ := whole'
  obtain rfl := List.append_cancel_left same
  refine each.unique sections_separate (fun s none => ?_) each'
  exact absurd (section_some none) (Nat.lt_irrefl 0)

/-- The parser accepts exactly the binaries that are sections in order, in one way only,
whose parsers accept them in turn. -/
theorem sections_exact (initExpr : InitExpr) (environment : List M3FuncType)
    (binary : List UInt8) (m : M3Module) :
    m3ParseModule initExpr environment binary = .ok m ↔
      ∃ sections, (moduleOctets sections binary ∧
          ∀ others, moduleOctets others binary → others = sections) ∧
        InOrder sections ∧ parseEach initExpr sections { environment := environment } = .ok m := by
  rw [m3ParseModule_iff]
  constructor
  · rintro ⟨sections, whole, inOrder, built⟩
    exact ⟨sections, ⟨whole, fun others whole' => moduleOctets_unique whole' whole⟩, inOrder,
      built⟩
  · rintro ⟨sections, ⟨whole, -⟩, inOrder, built⟩
    exact ⟨sections, whole, inOrder, built⟩

/-- A module that the parser returns refers to types and functions that it has and to octets
of the binary, and its imports are the first of its functions. -/
theorem parsed_wellFormed {initExpr : InitExpr} {binary : List UInt8} {m : M3Module}
    (walks : Walks initExpr) (parsed : m3ParseModule initExpr newEnvironment binary = .ok m) :
    WellFormed binary m := by
  obtain ⟨sections, ⟨octets, each, rfl⟩, inOrder, built⟩ := m3ParseModule_iff.mp parsed
  have inside : ∀ s ∈ sections, s.payload <:+: header ++ octets := fun s present =>
    (payload_inside each s present).trans (List.suffix_append header octets).isInfix
  have start : Reached (header ++ octets) 0 { environment := newEnvironment } :=
    ⟨wellFormed_start _, fun _ => rfl, fun _ => rfl⟩
  exact parseEach_reached walks (Nat.zero_le 12) inOrder inside start built

/-- `Parse_InitExpr` on `i32.const` and `end`. -/
def constExpr : InitExpr := fun _ bytes =>
  match bytes with
  | 0x41 :: digits => do
    let (_, rest) ← readLEB_i32 digits
    match rest with
    | 0x0b :: rest => .ok rest
    | _ => .error .wasmMalformed
  | _ => .error .unknownOpcode

theorem constExpr_walks : Walks constExpr := by
  intro m bytes rest done
  unfold constExpr at done
  split at done
  · next digits =>
    obtain ⟨⟨value, behind⟩, first, step⟩ := ok_of_bind done
    have exact_ : ReadsNumbers readLEB_i32 32 _ := readLebI_exact (by decide) (by decide)
    obtain ⟨octets, rfl, -⟩ := ((exact_ digits).1 value behind).mp first
    dsimp only at step
    split at step
    · obtain rfl := Except.ok.inj step
      exact ⟨0x41 :: (octets ++ [0x0b]), by simp⟩
    · cases step
  · cases done

/-- A type, a function of it that is exported as `f`, and a global. -/
def oneFunction : List UInt8 :=
  header ++ [1, 7, 1, 0x60, 2, 0x7f, 0x7f, 1, 0x7f] ++ [3, 2, 1, 0] ++
    [6, 6, 1, 0x7f, 0, 0x41, 7, 0x0b] ++ [7, 5, 1, 1, 0x66, 0, 0] ++
    [10, 9, 1, 7, 0, 0x20, 0, 0x20, 1, 0x6a, 0x0b]

theorem parsed_wellFormed_oneFunction :
    ∃ m, m3ParseModule constExpr newEnvironment oneFunction = .ok m ∧
      m.functions.length = 1 ∧ m.globals.length = 1 ∧ WellFormed oneFunction m :=
  ⟨_, rfl, rfl, rfl, parsed_wellFormed constExpr_walks rfl⟩

/-! ## Modules of functions -/

/-- However its numbers are written, a module of functions is parsed, and each function has
its type and its body. Where no two functions share an exported name, a function is found
under the first three names that it is exported under and under no other name. -/
theorem functions_found {fm : FuncModule} {binary : List UInt8} (sane : Sane fm)
    (encodes : funcModule fm binary) (initExpr : InitExpr) (environment : List M3FuncType) :
    ∃ m, m3ParseModule initExpr environment binary = .ok m ∧
      m.functions.length = fm.funcs.length ∧
      (∀ i func, fm.funcs[i]? = some func → ∃ wasm, code func.body wasm ∧
        m.functions[i]? = some (parsedFunc fm i func wasm)) ∧
      ((∀ e ∈ fm.exports, ∀ e' ∈ fm.exports, cstr e.name = cstr e'.name →
          e.index = e'.index) →
        ∀ utf8 f, m.findFunction utf8 = some f ↔ ∃ i : Nat, m.functions[i]? = some f ∧
          ∃ known ∈ (namesOf fm.exports i).take maxDuplicateFunctionImpl,
            cstr known = cstr utf8) := by
  obtain ⟨m, parsed, holds⟩ := parseFuncModule_complete sane encodes initExpr environment
  refine ⟨m, parsed, holds.count, holds.functions, fun apart utf8 f => ?_⟩
  exact holds.findFunction_iff apart

/-- The module of `addOctets`. -/
def addModule : FuncModule where
  types := [⟨[.i32, .i32], [.i32]⟩]
  funcs := [⟨0, [0, 0x20, 0, 0x20, 1, 0x6a, 0x0b]⟩]
  exports := [⟨[0x66], 0⟩]

theorem addModule_sane : Sane addModule := by
  constructor <;> simp [addModule, maxSaneCount, maxSaneEntries, maxSaneFunctionArgRetCount]

theorem addOctets_encode : funcModule addModule addOctets := by
  have args : vec valType [.i32, .i32] ([2, 0x7f, 0x7f] : List UInt8) :=
    ⟨[2], _, u32_small 2 (by decide), .cons rfl (.cons rfl .nil), rfl⟩
  have rets : vec valType [.i32] ([1, 0x7f] : List UInt8) :=
    ⟨[1], _, u32_small 1 (by decide), .cons rfl .nil, rfl⟩
  refine ⟨[1, 0x60, 2, 0x7f, 0x7f, 1, 0x7f], [1, 0], [1, 1, 0x66, 0, 0],
    [1, 7, 0, 0x20, 0, 0x20, 1, 0x6a, 0x0b], ?_, ?_, ?_, ?_, ?_⟩
  · exact ⟨[1], _, u32_small 1 (by decide), .cons ⟨_, _, args, rets, rfl⟩ .nil, rfl⟩
  · exact ⟨[1], _, u32_small 1 (by decide), .cons (u32_small 0 (by decide)) .nil, rfl⟩
  · exact ⟨[1], _, u32_small 1 (by decide),
      .cons ⟨_, [0], ⟨[1], u32_small 1 (by decide), rfl⟩, u32_small 0 (by decide), rfl⟩ .nil, rfl⟩
  · exact ⟨[1], _, u32_small 1 (by decide), .cons ⟨[7], u32_small 7 (by decide), rfl⟩ .nil, rfl⟩
  · exact ⟨_, .cons ⟨1, [7], by decide, rfl, u32_small 7 (by decide), rfl⟩
      (.cons ⟨3, [2], by decide, rfl, u32_small 2 (by decide), rfl⟩
        (.cons ⟨7, [5], by decide, rfl, u32_small 5 (by decide), rfl⟩
          (.cons ⟨10, [9], by decide, rfl, u32_small 9 (by decide), rfl⟩ .nil))), rfl⟩

theorem functions_found_addModule : ∃ m f,
    m3ParseModule constExpr newEnvironment addOctets = .ok m ∧
      m.findFunction [0x66] = some f ∧ f.funcType = ⟨[1], [1, 1]⟩ := by
  obtain ⟨m, parsed, -, each, lookup⟩ := functions_found addModule_sane addOctets_encode
    constExpr newEnvironment
  obtain ⟨wasm, -, at_0⟩ := each 0 _ rfl
  have found := (lookup (by simp [addModule]) [0x66] _).mpr ⟨0, at_0, [0x66], by decide, rfl⟩
  exact ⟨m, _, parsed, found, rfl⟩

/-! ## From a module to a call -/

/-- The function that is found under an exported name is the one that the module exports
under it, and once it is compiled it does what its body means. -/
theorem found_function_exact {fm : FuncModule} {binary : List UInt8} {e : FuncExport}
    {func : Func} {type : Signature} (sane : Sane fm)
    (apart : ∀ e ∈ fm.exports, ∀ e' ∈ fm.exports, cstr e.name = cstr e'.name →
      e.index = e'.index)
    (encodes : funcModule fm binary) (present : fm.funcs[e.index]? = some func)
    (kept : e.name ∈ (namesOf fm.exports e.index).take maxDuplicateFunctionImpl)
    (typed : fm.types[func.type]? = some type) (initExpr : InitExpr) (environment : List M3FuncType) :
    ∃ m f wasm, m3ParseModule initExpr environment binary = .ok m ∧
      m.findFunction e.name = some f ∧ f.funcType = funcTypeOf type ∧ f.wasm = some wasm ∧
      code func.body wasm ∧
      ∀ body, bodyOctets body func.body →
        allUnshared (type.args ++ body.locals) [] body.instrs = true →
        ∀ others compiled, compileFunction others ⟨type.args, type.rets⟩ wasm = .ok compiled →
          ∀ (stack : Machine) (args : List Value), args.map Value.type = type.args →
            ArgsAt stack (type.rets.length * ioSlotCount) args →
            compiled.maxStackSlots < stack.room →
            (∀ results, body.call type.rets args = some (.ok results) →
              ∃ after, compiled.run stack = .returned after ∧ ResultsAt after results) ∧
            ∀ trap, body.call type.rets args = some (.error trap) →
              compiled.run stack = .trapped trap := by
  obtain ⟨m, parsed, holds⟩ := parseFuncModule_complete sane encodes initExpr environment
  obtain ⟨wasm, placed, at_⟩ := holds.functions e.index func present
  have found := (holds.findFunction_iff apart).mpr ⟨e.index, at_, e.name, kept, rfl⟩
  refine ⟨m, _, wasm, parsed, found, parsedFunc_type typed wasm, rfl, placed, ?_⟩
  intro body is unshared others compiled done stack args types argsAt room
  have means := compileFunction_means (encodesBody_of is placed) unshared done
  exact (means.run types argsAt).2 room

/-- `x + y` of its arguments. -/
def addBody : Body := ⟨[], [.localGet 0, .localGet 1, .binary (.arith .i32 .add)]⟩

theorem addBody_octets :
    bodyOctets addBody ([0, 0x20, 0, 0x20, 1, 0x6a, 0x0b] : List UInt8) := by
  have instrs : EncodesAll addBody.instrs ([0x20, 0, 0x20, 1, 0x6a] : List UInt8) :=
    .cons (.localGet (u32_small 0 (by decide)).1) (.cons (.localGet (u32_small 1 (by decide)).1)
      (.cons (.binary (.arith .i32 .add)) .nil))
  exact ⟨[0], [], _, u32_small 0 (by decide), .nil, instrs, rfl⟩

theorem found_function_exact_addModule : ∃ m f wasm compiled after,
    m3ParseModule constExpr newEnvironment addOctets = .ok m ∧
      m.findFunction [0x66] = some f ∧ f.wasm = some wasm ∧
      compileFunction noOthers ⟨[.i32, .i32], [.i32]⟩ wasm = .ok compiled ∧
      compiled.run fourAndFive = .returned after ∧ after.word .i32 0 = 9#32 := by
  obtain ⟨m, f, wasm, parsed, found, -, hasBody, -, does⟩ :=
    found_function_exact (e := ⟨[0x66], 0⟩) addModule_sane (by simp [addModule])
      addOctets_encode rfl (by decide) rfl constExpr newEnvironment
  have octets : ((m3ParseModule constExpr newEnvironment addOctets).toOption.bind
      (·.findFunction [0x66])).bind ParsedFunction.wasm =
      some [7, 0, 0x20, 0, 0x20, 1, 0x6a, 0x0b] := by rfl
  rw [parsed] at octets
  obtain rfl : wasm = [7, 0, 0x20, 0, 0x20, 1, 0x6a, 0x0b] := by
    simpa [Except.toOption, found, hasBody] using octets
  obtain ⟨compiled, done, room⟩ : ∃ compiled, compileFunction noOthers
      ⟨[.i32, .i32], [.i32]⟩ [7, 0, 0x20, 0, 0x20, 1, 0x6a, 0x0b] = .ok compiled ∧
      compiled.maxStackSlots < 100 := ⟨_, rfl, by decide⟩
  have placed : ArgsAt fourAndFive (1 * ioSlotCount) [⟨.i32, 4⟩, ⟨.i32, 5⟩] := by
    intro i value at_
    match i, at_ with
    | 0, at_ =>
      obtain rfl := Option.some.inj at_
      rfl
    | 1, at_ =>
      obtain rfl := Option.some.inj at_
      rfl
  obtain ⟨after, returned, results⟩ :=
    (does addBody addBody_octets (by decide) noOthers compiled done fourAndFive _ rfl placed room).1
      [⟨.i32, 9⟩] (by decide)
  exact ⟨m, f, _, compiled, after, parsed, found, hasBody, done, returned, results 0 _ rfl⟩

end VelumOS.Guarantees.ModuleParsing
