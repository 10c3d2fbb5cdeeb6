import VelumOS.Spec.ParserSections

/-!
# What the parser keeps true of a module

Whatever the sections of a binary hold, the module that is parsed from them refers to
nothing that is not there: types that exist, functions that exist, bodies and data inside
the binary. Each section's parser keeps this; that imports come before the functions of
the module is what the order of the sections is for.
-/
namespace VelumOS.Spec.Parser
open Base.Formats Base.WasmModule Source.M3 Spec.Readers

/-- The end of an expression is behind its start. -/
def Walks (initExpr : InitExpr) : Prop :=
  ∀ m bytes rest, initExpr m bytes = .ok rest → rest <:+ bytes

structure TypeOk (t : M3FuncType) : Prop where
  few : t.rets.length + t.args.length ≤ maxSaneFunctionArgRetCount
  codes : ∀ code ∈ t.rets ++ t.args, code ≤ 4

/-- A body stands in the binary behind its size; imports have none. -/
structure FunctionOk (binary : List UInt8) (funcTypes : List M3FuncType)
    (func : ParsedFunction) : Prop where
  type : func.funcType ∈ funcTypes
  names : func.names.length ≤ maxDuplicateFunctionImpl
  exported : ∀ utf8, func.exportName = some utf8 → utf8 ∈ func.names
  body : ∀ wasm, func.wasm = some wasm → func.importInfo = none ∧ wasm <:+: binary ∧
    ∃ size code, u32 code.length size ∧ code ≠ [] ∧ wasm = size ++ code

structure GlobalOk (binary : List UInt8) (global : M3Global) : Prop where
  type : global.type ≤ 4
  imported : global.imported = true ↔ global.importInfo ≠ none
  initial : global.imported = false → ∃ expr, global.initExpr = some expr ∧
    1 < expr.length ∧ expr <:+: binary

structure SegmentOk (binary : List UInt8) (segment : M3DataSegment) : Prop where
  long : 1 < segment.initExpr.length
  initExpr : segment.initExpr <:+: binary
  data : segment.data <:+: binary

/-- A module whose parts refer to each other and to the binary as they should. -/
structure WellFormed (binary : List UInt8) (m : M3Module) : Prop where
  unique : m.environment.Nodup
  interned : ∀ t ∈ m.funcTypes, t ∈ m.environment
  types : ∀ t ∈ m.environment, TypeOk t
  functions : ∀ func ∈ m.functions, FunctionOk binary m.funcTypes func
  imports : ∀ i func, m.functions[i]? = some func →
    (func.importInfo ≠ none ↔ i < m.numFuncImports)
  fewImports : m.numFuncImports ≤ m.functions.length
  start : ∀ i, m.startFunction = some i → i < m.functions.length
  globals : ∀ global ∈ m.globals, GlobalOk binary global
  segments : ∀ segment ∈ m.dataSegments, SegmentOk binary segment
  elements : m.elementSection <:+: binary

section Loops
variable {entry : EntryParser} {P : M3Module → List UInt8 → Prop} {m m' : M3Module}
  {bytes rest : List UInt8}

/-- What each entry keeps, the loop over the entries keeps. -/
theorem parseEntries_inv
    (step : ∀ m bytes m' rest, P m bytes → entry m bytes = .ok (m', rest) → P m' rest)
    {count : Nat} (start : P m bytes) (done : parseEntries entry count m bytes = .ok (m', rest)) :
    P m' rest := by
  induction count generalizing m bytes with
  | zero =>
    obtain ⟨rfl, rfl⟩ := Prod.mk.inj (Except.ok.inj done)
    exact start
  | succ count ih =>
    obtain ⟨⟨m₁, bytes₁⟩, first, others⟩ := ok_of_bind done
    exact ih (step _ _ _ _ start first) others

theorem parseCounted_inv {limit : Nat} {fault : M3Err}
    (step : ∀ m bytes m' rest, P m bytes → entry m bytes = .ok (m', rest) → P m' rest)
    (start : ∀ rest, rest <:+ bytes → P m rest)
    (done : parseCounted limit fault entry m bytes = .ok m') : ∃ rest, P m' rest := by
  obtain ⟨⟨count, bytes₁⟩, first, step₁⟩ := ok_of_bind done
  dsimp only at step₁
  split at step₁
  · cases step₁
  · obtain ⟨⟨m₁, rest⟩, entries, step₂⟩ := ok_of_bind step₁
    obtain rfl := Except.ok.inj step₂
    exact ⟨rest, parseEntries_inv step (start _ (readLEB_u32_reads.suffix first)) entries⟩

end Loops

section Sections
variable {binary bytes rest : List UInt8} {m m' : M3Module}

theorem inside_of_suffix {part whole : List UInt8} (suffix : part <:+ whole)
    (inside : whole <:+: binary) : part <:+: binary :=
  suffix.isInfix.trans inside

/-- What lies between a position and a later one. -/
theorem between_append (front rest : List UInt8) : between (front ++ rest) rest = front := by
  rw [between, List.length_append, Nat.add_sub_cancel, List.take_left]

theorem between_inside {start : List UInt8} (suffix : rest <:+ start)
    (inside : start <:+: binary) : between start rest <:+: binary := by
  obtain ⟨front, rfl⟩ := suffix
  rw [between_append]
  exact (List.prefix_append front rest).isInfix.trans inside

/-! ## Types -/

theorem mem_addFuncType {environment : List M3FuncType} {t added : M3FuncType} :
    t ∈ addFuncType environment added ↔ t = added ∨ t ∈ environment := by
  unfold addFuncType
  split
  · next known =>
    constructor
    · exact .inr
    · rintro (rfl | inside)
      · exact known
      · exact inside
  · exact List.mem_cons

theorem nodup_addFuncType {environment : List M3FuncType} {added : M3FuncType}
    (unique : environment.Nodup) : (addFuncType environment added).Nodup := by
  unfold addFuncType
  split
  · exact unique
  · next fresh => exact List.nodup_cons.mpr ⟨fresh, unique⟩

theorem parseFuncType_wf (wf : WellFormed binary m) (none : m.functions = [])
    (done : parseFuncType m bytes = .ok (m', rest)) :
    WellFormed binary m' ∧ m'.functions = [] := by
  obtain ⟨⟨form, bytes₁⟩, -, step⟩ := ok_of_bind done
  dsimp only at step
  split at step
  · cases step
  obtain ⟨⟨numArgs, bytes₂⟩, -, step₁⟩ := ok_of_bind step
  dsimp only at step₁
  split at step₁
  · cases step₁
  obtain ⟨⟨args, bytes₃⟩, readArgs, step₂⟩ := ok_of_bind step₁
  obtain ⟨⟨numRets, bytes₄⟩, -, step₃⟩ := ok_of_bind step₂
  dsimp only at step₃
  split at step₃
  · cases step₃
  · next few =>
    obtain ⟨⟨rets, bytes₅⟩, readRets, step₄⟩ := ok_of_bind step₃
    obtain ⟨rfl, rfl⟩ := Prod.mk.inj (Except.ok.inj step₄)
    obtain ⟨_, ⟨argCount, argTypes⟩, -⟩ := (readTypes_reads _).sound readArgs
    obtain ⟨_, ⟨retCount, retTypes⟩, -⟩ := (readTypes_reads _).sound readRets
    have ok : TypeOk ⟨rets, args⟩ := by
      refine ⟨by dsimp only; omega, fun code inside => ?_⟩
      rcases List.mem_append.mp inside with inside | inside
      · exact types_le retTypes code inside
      · exact types_le argTypes code inside
    refine ⟨{ wf with
      unique := nodup_addFuncType wf.unique
      interned := fun t inside => ?_
      types := fun t inside => ?_
      functions := fun func inside => ?_ }, none⟩
    · rcases List.mem_append.mp inside with inside | inside
      · exact mem_addFuncType.mpr (.inr (wf.interned t inside))
      · exact mem_addFuncType.mpr (.inl (List.mem_singleton.mp inside))
    · rcases mem_addFuncType.mp inside with rfl | inside
      · exact ok
      · exact wf.types t inside
    · dsimp only at inside
      rw [none] at inside
      cases inside

theorem parseSectionType_wf (wf : WellFormed binary m) (none : m.functions = [])
    (done : parseSectionType m bytes = .ok m') : WellFormed binary m' ∧ m'.functions = [] := by
  have cleared : WellFormed binary { m with funcTypes := [] } := by
    refine { wf with interned := fun t inside => ?_, functions := fun func inside => ?_ }
    · cases inside
    · dsimp only at inside
      rw [none] at inside
      cases inside
  obtain ⟨-, kept⟩ := parseCounted_inv
    (P := fun m _ => WellFormed binary m ∧ m.functions = [])
    (fun _ _ _ _ before entry => parseFuncType_wf before.1 before.2 entry)
    (fun _ _ => ⟨cleared, none⟩) done
  exact kept

/-! ## Functions and imports -/

theorem addFunction_eq {typeIndex : Nat} {importInfo : Option M3ImportInfo}
    (done : m.addFunction typeIndex importInfo = .ok m') :
    ∃ func : ParsedFunction, func.funcType ∈ m.funcTypes ∧ func.importInfo = importInfo ∧
      func.names.length ≤ 1 ∧ func.exportName = none ∧ func.wasm = none ∧
      m' = { m with functions := m.functions ++ [func] } := by
  unfold M3Module.addFunction at done
  split at done
  · cases done
  · next funcType found =>
    obtain rfl := Except.ok.inj done
    refine ⟨_, List.mem_of_getElem? found, rfl, ?_, rfl, rfl, rfl⟩
    cases importInfo <;> simp

/-- A function behind the others, where it belongs by whether it is an import. -/
theorem WellFormed.addFunction (wf : WellFormed binary m) {func : ParsedFunction} {n : Nat}
    (type : func.funcType ∈ m.funcTypes) (names : func.names.length ≤ 1)
    (exported : func.exportName = none) (body : func.wasm = none)
    (counted : (func.importInfo = none ∧ n = m.numFuncImports) ∨
      (func.importInfo ≠ none ∧ m.numFuncImports = m.functions.length ∧
        n = m.numFuncImports + 1)) :
    WellFormed binary { m with functions := m.functions ++ [func], numFuncImports := n } := by
  have ok : FunctionOk binary m.funcTypes func := by
    refine ⟨type, Nat.le_trans names (by decide), fun utf8 found => ?_, fun wasm found => ?_⟩
    · rw [exported] at found
      cases found
    · rw [body] at found
      cases found
  have few := wf.fewImports
  refine { wf with
    functions := fun other inside => ?_
    imports := fun i other found => ?_
    fewImports := ?_
    start := fun i found => ?_ }
  · rcases List.mem_append.mp inside with inside | inside
    · exact wf.functions other inside
    · rw [List.mem_singleton.mp inside]
      exact ok
  · dsimp only at found ⊢
    rcases Nat.lt_or_ge i m.functions.length with before | behind
    · rw [List.getElem?_append_left before] at found
      rw [wf.imports i other found]
      rcases counted with ⟨-, rfl⟩ | ⟨-, all, rfl⟩ <;> omega
    · rw [List.getElem?_append_right behind, List.getElem?_singleton] at found
      split at found
      · next here =>
        obtain rfl := Option.some.inj found
        rcases counted with ⟨plain, rfl⟩ | ⟨isImport, all, rfl⟩
        · exact ⟨fun some => absurd plain some, fun below => by omega⟩
        · exact ⟨fun _ => by omega, fun _ => isImport⟩
      · cases found
  · dsimp only
    rw [List.length_append, List.length_singleton]
    rcases counted with ⟨-, rfl⟩ | ⟨-, -, rfl⟩ <;> omega
  · have inside := wf.start i found
    dsimp only
    rw [List.length_append]
    omega

theorem parseFunction_wf (wf : WellFormed binary m)
    (done : parseFunction m bytes = .ok (m', rest)) : WellFormed binary m' := by
  obtain ⟨⟨funcTypeIndex, bytes₁⟩, -, step⟩ := ok_of_bind done
  obtain ⟨m₁, added, step₁⟩ := ok_of_bind step
  obtain ⟨rfl, -⟩ := Prod.mk.inj (Except.ok.inj step₁)
  obtain ⟨func, type, plain, names, exported, body, rfl⟩ := addFunction_eq added
  exact wf.addFunction type names exported body (.inl ⟨plain, rfl⟩)

theorem parseSectionFunction_wf (wf : WellFormed binary m)
    (done : parseSectionFunction m bytes = .ok m') : WellFormed binary m' := by
  obtain ⟨-, kept⟩ := parseCounted_inv (P := fun m _ => WellFormed binary m)
    (fun _ _ _ _ before entry => parseFunction_wf before entry) (fun _ _ => wf) done
  exact kept

theorem WellFormed.addGlobal (wf : WellFormed binary m) {global : M3Global}
    (ok : GlobalOk binary global) : WellFormed binary (m.addGlobal global) := by
  refine { wf with globals := fun other inside => ?_ }
  rcases List.mem_append.mp inside with inside | inside
  · exact wf.globals other inside
  · rw [List.mem_singleton.mp inside]
    exact ok

/-- As long as there are only imports, an import is another one of them. -/
theorem parseImport_wf (wf : WellFormed binary m)
    (only : m.numFuncImports = m.functions.length)
    (done : parseImport m bytes = .ok (m', rest)) :
    WellFormed binary m' ∧ m'.numFuncImports = m'.functions.length := by
  obtain ⟨⟨moduleUtf8, bytes₁⟩, -, step₁⟩ := ok_of_bind done
  obtain ⟨⟨fieldUtf8, bytes₂⟩, -, step₂⟩ := ok_of_bind step₁
  obtain ⟨⟨importKind, bytes₃⟩, -, step₃⟩ := ok_of_bind step₂
  dsimp only at step₃
  split at step₃
  · obtain ⟨⟨typeIndex, bytes₄⟩, -, step₄⟩ := ok_of_bind step₃
    obtain ⟨m₁, added, step₅⟩ := ok_of_bind step₄
    obtain ⟨rfl, -⟩ := Prod.mk.inj (Except.ok.inj step₅)
    obtain ⟨func, type, isImport, names, exported, body, rfl⟩ := addFunction_eq added
    refine ⟨wf.addFunction type names exported body (.inr ⟨?_, only, rfl⟩), ?_⟩
    · rw [isImport]
      exact Option.some_ne_none _
    · dsimp only
      rw [List.length_append, List.length_singleton, only]
  · obtain ⟨rfl, -⟩ := Prod.mk.inj (Except.ok.inj step₃)
    exact ⟨wf, only⟩
  · obtain ⟨bytes₄, -, step₄⟩ := ok_of_bind step₃
    obtain ⟨rfl, -⟩ := Prod.mk.inj (Except.ok.inj step₄)
    exact ⟨{ wf with }, only⟩
  · obtain ⟨⟨waType, bytes₄⟩, -, step₄⟩ := ok_of_bind step₃
    obtain ⟨type, normal, step₅⟩ := ok_of_bind step₄
    obtain ⟨⟨isMutable, bytes₅⟩, -, step₆⟩ := ok_of_bind step₅
    obtain ⟨rfl, -⟩ := Prod.mk.inj (Except.ok.inj step₆)
    refine ⟨wf.addGlobal ⟨normalizeType_le normal, ?_, ?_⟩, only⟩
    · exact ⟨fun _ => Option.some_ne_none _, fun _ => rfl⟩
    · intro plain
      cases plain
  · cases step₃

theorem parseSectionImport_wf (wf : WellFormed binary m)
    (only : m.numFuncImports = m.functions.length)
    (done : parseSectionImport m bytes = .ok m') :
    WellFormed binary m' ∧ m'.numFuncImports = m'.functions.length := by
  obtain ⟨-, kept⟩ := parseCounted_inv
    (P := fun m _ => WellFormed binary m ∧ m.numFuncImports = m.functions.length)
    (fun _ _ _ _ before entry => parseImport_wf before.1 before.2 entry)
    (fun _ _ => ⟨wf, only⟩) done
  exact kept

/-! ## Parts that keep the functions' number -/

/-- The module with other names, bodies or parts, but the same functions. -/
structure Keeps (binary : List UInt8) (before m : M3Module) : Prop where
  wf : WellFormed binary m
  count : m.functions.length = before.functions.length
  imports : m.numFuncImports = before.numFuncImports

theorem WellFormed.keeps (wf : WellFormed binary m) : Keeps binary m m := ⟨wf, rfl, rfl⟩

/-- One function changes, and stays what it is. -/
theorem WellFormed.modify (wf : WellFormed binary m) (i : Nat)
    (f : ParsedFunction → ParsedFunction)
    (stays : ∀ func, m.functions[i]? = some func →
      FunctionOk binary m.funcTypes (f func) ∧ (f func).importInfo = func.importInfo) :
    Keeps binary m { m with functions := m.functions.modify i f } := by
  have each : ∀ (j : Nat) (func : ParsedFunction), (m.functions.modify i f)[j]? = some func →
      ∃ old : ParsedFunction, m.functions[j]? = some old ∧ func.importInfo = old.importInfo ∧
        FunctionOk binary m.funcTypes func := by
    intro j func found
    rw [List.getElem?_modify] at found
    obtain ⟨old, at_j, rfl⟩ := Option.map_eq_some_iff.mp found
    split
    · next here =>
      subst here
      exact ⟨old, at_j, (stays old at_j).2, (stays old at_j).1⟩
    · exact ⟨old, at_j, rfl, wf.functions old (List.mem_of_getElem? at_j)⟩
  have length : (m.functions.modify i f).length = m.functions.length := List.length_modify ..
  refine ⟨{ wf with
    functions := fun func inside => ?_
    imports := fun j func found => ?_
    fewImports := ?_
    start := fun j found => ?_ }, length, rfl⟩
  · obtain ⟨j, found⟩ := List.mem_iff_getElem?.mp inside
    obtain ⟨-, -, -, ok⟩ := each j func found
    exact ok
  · obtain ⟨old, at_j, same, -⟩ := each j func found
    rw [same]
    exact wf.imports j old at_j
  · dsimp only
    rw [length]
    exact wf.fewImports
  · dsimp only
    rw [length]
    exact wf.start j found

theorem addExport_ok {funcTypes : List M3FuncType} {func : ParsedFunction} {utf8 : List UInt8}
    (ok : FunctionOk binary funcTypes func) :
    FunctionOk binary funcTypes (func.addExport utf8) ∧
      (func.addExport utf8).importInfo = func.importInfo := by
  unfold ParsedFunction.addExport
  split
  · next room =>
    refine ⟨⟨ok.type, ?_, fun other found => ?_, ok.body⟩, rfl⟩
    · dsimp only
      rw [List.length_append, List.length_singleton]
      exact room
    · obtain rfl := Option.some.inj found
      exact List.mem_append_right _ (List.mem_singleton.mpr rfl)
  · exact ⟨ok, rfl⟩

theorem addExport_keeps {exportKind : UInt8} {index : Nat} {utf8 : List UInt8}
    (wf : WellFormed binary m) (done : m.addExport exportKind index utf8 = .ok m') :
    Keeps binary m m' := by
  unfold M3Module.addExport at done
  split at done
  · split at done
    · cases done
    · obtain rfl := Except.ok.inj done
      exact wf.modify index _ fun func found =>
        addExport_ok (wf.functions func (List.mem_of_getElem? found))
  · obtain rfl := Except.ok.inj done
    exact ⟨{ wf with }, rfl, rfl⟩
  · obtain rfl := Except.ok.inj done
    exact ⟨{ wf with }, rfl, rfl⟩
  · split at done
    · cases done
    · obtain rfl := Except.ok.inj done
      refine ⟨{ wf with globals := fun global inside => ?_ }, rfl, rfl⟩
      obtain ⟨j, found⟩ := List.mem_iff_getElem?.mp inside
      rw [List.getElem?_modify] at found
      obtain ⟨old, at_j, rfl⟩ := Option.map_eq_some_iff.mp found
      have ok := wf.globals old (List.mem_of_getElem? at_j)
      split
      · exact ⟨ok.type, ok.imported, ok.initial⟩
      · exact ok
  · obtain rfl := Except.ok.inj done
    exact wf.keeps

theorem Keeps.trans {first second third : M3Module} (one : Keeps binary first second)
    (two : Keeps binary second third) : Keeps binary first third :=
  ⟨two.wf, two.count.trans one.count, two.imports.trans one.imports⟩

theorem parseExport_keeps (wf : WellFormed binary m)
    (done : parseExport m bytes = .ok (m', rest)) : Keeps binary m m' := by
  obtain ⟨⟨utf8, bytes₁⟩, -, step₁⟩ := ok_of_bind done
  obtain ⟨⟨exportKind, bytes₂⟩, -, step₂⟩ := ok_of_bind step₁
  obtain ⟨⟨index, bytes₃⟩, -, step₃⟩ := ok_of_bind step₂
  obtain ⟨m₁, added, step₄⟩ := ok_of_bind step₃
  obtain ⟨rfl, -⟩ := Prod.mk.inj (Except.ok.inj step₄)
  exact addExport_keeps wf added

theorem parseSectionExport_keeps (wf : WellFormed binary m)
    (done : parseSectionExport m bytes = .ok m') : Keeps binary m m' := by
  obtain ⟨-, kept⟩ := parseCounted_inv (P := fun now _ => Keeps binary m now)
    (fun _ _ _ _ before entry => before.trans (parseExport_keeps before.wf entry))
    (fun _ _ => wf.keeps) done
  exact kept

theorem parseName_keeps (wf : WellFormed binary m)
    (done : parseName m bytes = .ok (m', rest)) : Keeps binary m m' := by
  obtain ⟨⟨index, bytes₁⟩, -, step₁⟩ := ok_of_bind done
  obtain ⟨⟨name, bytes₂⟩, -, step₂⟩ := ok_of_bind step₁
  obtain ⟨rfl, -⟩ := Prod.mk.inj (Except.ok.inj step₂)
  refine wf.modify index.toNat _ fun func found => ?_
  have ok := wf.functions func (List.mem_of_getElem? found)
  split
  · next unnamed =>
    refine ⟨⟨ok.type, show 1 ≤ 3 by decide, fun utf8 exported => ?_, ok.body⟩, rfl⟩
    have inside := ok.exported utf8 exported
    rw [unnamed] at inside
    cases inside
  · exact ⟨ok, rfl⟩

theorem parseNames_keeps {nameType : BitVec 8} (wf : WellFormed binary m)
    (done : parseNames nameType m bytes = .ok m') : Keeps binary m m' := by
  unfold parseNames at done
  split at done
  · obtain ⟨-, kept⟩ := parseCounted_inv (P := fun now _ => Keeps binary m now)
      (fun _ _ _ _ before entry => before.trans (parseName_keeps before.wf entry))
      (fun _ _ => wf.keeps) done
    exact kept
  · obtain rfl := Except.ok.inj done
    exact wf.keeps

theorem parseSectionName_keeps {fuel : Nat} (wf : WellFormed binary m)
    (done : parseSectionName fuel m bytes = .ok m') : Keeps binary m m' := by
  induction fuel generalizing m bytes with
  | zero =>
    obtain rfl := Except.ok.inj done
    exact wf.keeps
  | succ fuel ih =>
    rw [parseSectionName] at done
    split at done
    · obtain rfl := Except.ok.inj done
      exact wf.keeps
    · obtain ⟨⟨nameType, bytes₁⟩, -, step₁⟩ := ok_of_bind done
      obtain ⟨⟨payloadLength, start⟩, -, step₂⟩ := ok_of_bind step₁
      obtain ⟨m₁, named, step₃⟩ := ok_of_bind step₂
      have kept := parseNames_keeps wf named
      exact kept.trans (ih kept.wf step₃)

theorem parseSectionCustom_keeps (wf : WellFormed binary m)
    (done : parseSectionCustom m bytes = .ok m') : Keeps binary m m' := by
  obtain ⟨⟨name, bytes₁⟩, -, step₁⟩ := ok_of_bind done
  dsimp only at step₁
  split at step₁
  · exact parseSectionName_keeps wf step₁
  · obtain rfl := Except.ok.inj step₁
    exact wf.keeps

theorem parseSectionMemory_keeps (wf : WellFormed binary m)
    (done : parseSectionMemory m bytes = .ok m') : Keeps binary m m' := by
  obtain ⟨⟨numMemories, bytes₁⟩, -, step₁⟩ := ok_of_bind done
  dsimp only at step₁
  split at step₁
  · cases step₁
  · obtain rfl := Except.ok.inj step₁
    exact ⟨{ wf with }, rfl, rfl⟩

theorem parseSectionStart_keeps (wf : WellFormed binary m)
    (done : parseSectionStart m bytes = .ok m') : Keeps binary m m' := by
  obtain ⟨⟨startFuncIndex, bytes₁⟩, -, step₁⟩ := ok_of_bind done
  dsimp only at step₁
  split at step₁
  · next inside =>
    obtain rfl := Except.ok.inj step₁
    refine ⟨{ wf with start := fun i found => ?_ }, rfl, rfl⟩
    obtain rfl := Option.some.inj found
    exact inside
  · cases step₁

theorem parseSectionElement_keeps (wf : WellFormed binary m) (inside : bytes <:+: binary)
    (done : parseSectionElement m bytes = .ok m') : Keeps binary m m' := by
  obtain ⟨⟨numSegments, bytes₁⟩, first, step₁⟩ := ok_of_bind done
  dsimp only at step₁
  split at step₁
  · cases step₁
  · obtain rfl := Except.ok.inj step₁
    have elements := inside_of_suffix (readLEB_u32_reads.suffix first) inside
    exact ⟨{ wf with elements := elements }, rfl, rfl⟩

/-! ## Bodies, data and globals -/

theorem parseCodes_keeps {count f : Nat} {start : List UInt8} (wf : WellFormed binary m)
    (inside : start <:+: binary) (done : parseCodes count f m start = .ok (m', rest)) :
    Keeps binary m m' := by
  induction count generalizing f m start with
  | zero =>
    obtain ⟨rfl, -⟩ := Prod.mk.inj (Except.ok.inj done)
    exact wf.keeps
  | succ count ih =>
    rw [parseCodes] at done
    obtain ⟨⟨size, bytes⟩, first, step₁⟩ := ok_of_bind done
    obtain ⟨octets, sized, rfl⟩ := u32_of_read first
    dsimp only at step₁
    split at step₁
    · exact ih wf (inside_of_suffix (List.suffix_append octets bytes) inside) step₁
    · next some =>
      split at step₁
      · cases step₁
      · next long =>
        have taken : (bytes.take size.toNat).length = size.toNat :=
          List.length_take_of_le (Nat.not_lt.mp long)
        have split : octets ++ bytes =
            (octets ++ bytes.take size.toNat) ++ bytes.drop size.toNat := by
          rw [List.append_assoc, List.take_append_drop]
        have kept : Keeps binary m { m with
            functions := m.functions.modify (f + m.numFuncImports) fun func =>
              { func with
                wasm := Option.some (between (octets ++ bytes) (bytes.drop size.toNat)) } } := by
          refine wf.modify _ _ fun func found => ⟨?_, rfl⟩
          have ok := wf.functions func (List.mem_of_getElem? found)
          refine ⟨ok.type, ok.names, ok.exported, fun wasm same => ?_⟩
          obtain rfl := Option.some.inj same
          rw [split, between_append]
          refine ⟨?_, ?_, octets, bytes.take size.toNat, by rw [taken]; exact sized,
            fun none => ?_, rfl⟩
          · by_contra isImport
            have below := (wf.imports _ func found).mp isImport
            omega
          · rw [split] at inside
            exact (List.prefix_append _ _).isInfix.trans inside
          · rw [none] at taken
            exact some (BitVec.eq_of_toNat_eq taken.symm)
        refine kept.trans (ih kept.wf ?_ step₁)
        rw [split] at inside
        exact inside_of_suffix (List.suffix_append _ _) inside

theorem parseSectionCode_keeps (wf : WellFormed binary m) (inside : bytes <:+: binary)
    (done : parseSectionCode m bytes = .ok m') : Keeps binary m m' := by
  obtain ⟨⟨numFunctions, bytes₁⟩, first, step₁⟩ := ok_of_bind done
  dsimp only at step₁
  split at step₁
  · cases step₁
  · obtain ⟨⟨m₁, rest⟩, codes, step₂⟩ := ok_of_bind step₁
    dsimp only at step₂
    split at step₂
    · cases step₂
    · obtain rfl := Except.ok.inj step₂
      exact parseCodes_keeps wf (inside_of_suffix (readLEB_u32_reads.suffix first) inside) codes

theorem parseDataSegment_keeps {initExpr : InitExpr} (walks : Walks initExpr)
    (wf : WellFormed binary m) (inside : bytes <:+: binary)
    (done : parseDataSegment initExpr m bytes = .ok (m', rest)) :
    Keeps binary m m' ∧ rest <:+: binary := by
  obtain ⟨⟨memoryRegion, start⟩, first, step₁⟩ := ok_of_bind done
  obtain ⟨bytes₁, walked, step₂⟩ := ok_of_bind step₁
  have startInside := inside_of_suffix (readLEB_u32_reads.suffix first) inside
  have behind := walks _ _ _ walked
  dsimp only at step₂
  split at step₂
  · cases step₂
  · next long =>
    obtain ⟨⟨size, data⟩, second, step₃⟩ := ok_of_bind step₂
    have dataInside := inside_of_suffix (readLEB_u32_reads.suffix second)
      (inside_of_suffix behind startInside)
    dsimp only at step₃
    split at step₃
    · cases step₃
    · obtain ⟨rfl, rfl⟩ := Prod.mk.inj (Except.ok.inj step₃)
      refine ⟨⟨{ wf with segments := fun segment present => ?_ }, rfl, rfl⟩,
        inside_of_suffix (List.drop_suffix _ _) dataInside⟩
      rcases List.mem_append.mp present with present | present
      · exact wf.segments segment present
      · rw [List.mem_singleton.mp present]
        exact ⟨Nat.not_le.mp long, between_inside behind startInside,
          ( List.take_prefix _ _).isInfix.trans dataInside⟩

theorem parseSectionData_keeps {initExpr : InitExpr} (walks : Walks initExpr)
    (wf : WellFormed binary m) (inside : bytes <:+: binary)
    (done : parseSectionData initExpr m bytes = .ok m') : Keeps binary m m' := by
  have cleared : Keeps binary m { m with dataSegments := [] } := by
    refine ⟨{ wf with segments := fun segment present => ?_ }, rfl, rfl⟩
    cases present
  obtain ⟨-, kept, -⟩ := parseCounted_inv
    (P := fun now bytes => Keeps binary m now ∧ bytes <:+: binary)
    (fun _ _ _ _ before entry =>
      have after := parseDataSegment_keeps walks before.1.wf before.2 entry
      ⟨before.1.trans after.1, after.2⟩)
    (fun _ suffix => ⟨cleared, inside_of_suffix suffix inside⟩) done
  exact kept

theorem parseGlobal_keeps {initExpr : InitExpr} (walks : Walks initExpr)
    (wf : WellFormed binary m) (inside : bytes <:+: binary)
    (done : parseGlobal initExpr m bytes = .ok (m', rest)) :
    Keeps binary m m' ∧ rest <:+: binary := by
  obtain ⟨⟨waType, bytes₁⟩, first, step₁⟩ := ok_of_bind done
  obtain ⟨type, normal, step₂⟩ := ok_of_bind step₁
  obtain ⟨⟨isMutable, start⟩, second, step₃⟩ := ok_of_bind step₂
  obtain ⟨bytes₂, walked, step₄⟩ := ok_of_bind step₃
  have startInside := inside_of_suffix (readLEB_u7_reads.suffix second)
    (inside_of_suffix (readLEB_i7_reads.suffix first) inside)
  have behind := walks _ _ _ walked
  split at step₄
  · cases step₄
  · next long =>
    obtain ⟨rfl, rfl⟩ := Prod.mk.inj (Except.ok.inj step₄)
    refine ⟨⟨wf.addGlobal ⟨normalizeType_le normal, ?_, fun _ => ?_⟩, rfl, rfl⟩,
      inside_of_suffix behind startInside⟩
    · exact ⟨fun plain => absurd plain Bool.false_ne_true, fun isImport => absurd rfl isImport⟩
    · exact ⟨_, rfl, Nat.not_le.mp long, between_inside behind startInside⟩

theorem parseSectionGlobal_keeps {initExpr : InitExpr} (walks : Walks initExpr)
    (wf : WellFormed binary m) (inside : bytes <:+: binary)
    (done : parseSectionGlobal initExpr m bytes = .ok m') : Keeps binary m m' := by
  obtain ⟨-, kept, -⟩ := parseCounted_inv
    (P := fun now bytes => Keeps binary m now ∧ bytes <:+: binary)
    (fun _ _ _ _ before entry =>
      have after := parseGlobal_keeps walks before.1.wf before.2 entry
      ⟨before.1.trans after.1, after.2⟩)
    (fun _ suffix => ⟨wf.keeps, inside_of_suffix suffix inside⟩) done
  exact kept

end Sections

/-! ## The sections in order -/

/-- Before the functions of the module there are only imports, and before the imports no
functions at all. -/
structure Reached (binary : List UInt8) (expected : Nat) (m : M3Module) : Prop where
  wf : WellFormed binary m
  early : expected ≤ 1 → m.functions = []
  onlyImports : expected ≤ 2 → m.numFuncImports = m.functions.length

section Order
variable {binary bytes : List UInt8} {m m' : M3Module} {expected found number : Nat}

theorem follows_place (within : expected ≤ 12) (within' : found ≤ 12)
    (follows : Follows number (sectionNumbers.drop expected) (sectionNumbers.drop found)) :
    (number = 0 ∧ found = expected) ∨
      (number ≠ 0 ∧ expected < found ∧ sectionNumbers[found - 1]? = some number) := by
  rcases follows with ⟨custom, same⟩ | ⟨plain, skipped, split, -⟩
  · have lengths := congrArg List.length same
    rw [drop_length, drop_length] at lengths
    exact .inl ⟨custom, by omega⟩
  · have lengths := congrArg List.length split
    rw [drop_length, List.length_append, List.length_cons, drop_length] at lengths
    obtain rfl : found = expected + skipped.length + 1 := by omega
    refine .inr ⟨plain, by omega, ?_⟩
    have here : (sectionNumbers.drop expected)[skipped.length]? = some number := by
      rw [split, List.getElem?_append_right (Nat.le_refl _), Nat.sub_self]
      rfl
    rwa [List.getElem?_drop] at here

theorem Keeps.reached (kept : Keeps binary m m') (reached : Reached binary expected m)
    (later : expected ≤ found) : Reached binary found m' := by
  refine ⟨kept.wf, fun early => ?_, fun early => ?_⟩
  · have none := kept.count
    rw [reached.early (Nat.le_trans later early)] at none
    exact List.eq_nil_of_length_eq_zero none
  · rw [kept.imports, kept.count]
    exact reached.onlyImports (Nat.le_trans later early)

/-- The sections that must know what came before them stand where they may rely on it. -/
theorem early_places : ∀ i < 12, (sectionNumbers[i]? = some 1 → i = 0) ∧
    (sectionNumbers[i]? = some 2 → i = 1) ∧ (sectionNumbers[i]? = some 3 → i = 2) := by
  decide

/-- A section in its place. -/
theorem parseModuleSection_reached {initExpr : InitExpr} (walks : Walks initExpr)
    (within : expected ≤ 12) (within' : found ≤ 12)
    (follows : Follows number (sectionNumbers.drop expected) (sectionNumbers.drop found))
    (inside : bytes <:+: binary) (reached : Reached binary expected m)
    (done : parseModuleSection initExpr number m bytes = .ok m') : Reached binary found m' := by
  have place := follows_place within within' follows
  have later : expected ≤ found := by
    rcases place with ⟨-, rfl⟩ | ⟨-, before, -⟩ <;> omega
  have places := early_places (found - 1)
  have wf := reached.wf
  unfold parseModuleSection at done
  split at done
  · exact (parseSectionCustom_keeps wf done).reached reached later
  · obtain ⟨-, before, at_⟩ : 1 ≠ 0 ∧ expected < found ∧ sectionNumbers[found - 1]? = some 1 := by
      simpa using place
    have first := (places (by omega)).1 at_
    obtain ⟨wf', none⟩ := parseSectionType_wf wf (reached.early (by omega)) done
    refine ⟨wf', fun _ => none, fun _ => ?_⟩
    have few := wf'.fewImports
    rw [none] at few ⊢
    exact Nat.le_zero.mp few
  · obtain ⟨-, before, at_⟩ : 2 ≠ 0 ∧ expected < found ∧ sectionNumbers[found - 1]? = some 2 := by
      simpa using place
    have second := (places (by omega)).2.1 at_
    obtain ⟨wf', only⟩ := parseSectionImport_wf wf (reached.onlyImports (by omega)) done
    exact ⟨wf', fun early => by omega, fun _ => only⟩
  · obtain ⟨-, before, at_⟩ : 3 ≠ 0 ∧ expected < found ∧ sectionNumbers[found - 1]? = some 3 := by
      simpa using place
    have third := (places (by omega)).2.2 at_
    exact ⟨parseSectionFunction_wf wf done, fun early => by omega, fun early => by omega⟩
  · exact (parseSectionMemory_keeps wf done).reached reached later
  · exact (parseSectionGlobal_keeps walks wf inside done).reached reached later
  · exact (parseSectionExport_keeps wf done).reached reached later
  · exact (parseSectionStart_keeps wf done).reached reached later
  · exact (parseSectionElement_keeps wf inside done).reached reached later
  · exact (parseSectionCode_keeps wf inside done).reached reached later
  · exact (parseSectionData_keeps walks wf inside done).reached reached later
  · obtain rfl := Except.ok.inj done
    exact wf.keeps.reached reached later

/-- The sections of a binary, one after another. -/
theorem parseEach_reached {initExpr : InitExpr} (walks : Walks initExpr)
    {sections : List Section} (within : expected ≤ 12)
    (inOrder : ((sections.map Section.id).filter (· ≠ 0)).Sublist (sectionNumbers.drop expected))
    (inside : ∀ s ∈ sections, s.payload <:+: binary) (reached : Reached binary expected m)
    (built : parseEach initExpr sections m = .ok m') : WellFormed binary m' := by
  induction sections generalizing expected m with
  | nil =>
    obtain rfl := Except.ok.inj built
    exact reached.wf
  | cons s sections ih =>
    rw [parseEach, List.foldlM_cons] at built
    obtain ⟨m₁, parsed, others⟩ := ok_of_bind built
    obtain ⟨behind, follows, inOrder⟩ := sublist_iff_follows.mp inOrder
    obtain ⟨found, within', rfl⟩ := behind_drop within follows
    exact ih within' inOrder (fun other present => inside other (List.mem_cons_of_mem _ present))
      (parseModuleSection_reached walks within within' follows (inside s List.mem_cons_self)
        reached parsed) others

end Order

/-- What a section holds stands in the binary. -/
theorem payload_inside {sections : List Section} {octets : List UInt8}
    (each : Each sectionOctets sections octets) :
    ∀ s ∈ sections, s.payload <:+: octets := by
  induction each with
  | nil =>
    intro s present
    cases present
  | @cons s sections octets rest first others ih =>
    intro other present
    rcases List.mem_cons.mp present with rfl | present
    · obtain ⟨id, size, -, -, -, rfl⟩ := first
      exact ⟨id :: size, rest, by simp⟩
    · exact (ih other present).trans (List.suffix_append octets rest).isInfix

theorem wellFormed_start (binary : List UInt8) :
    WellFormed binary { environment := newEnvironment } := by
  refine ⟨by decide, by simp, fun t inside => ?_, by simp, by simp, Nat.le_refl _, by simp,
    by simp, by simp, List.nil_infix⟩
  have few : ∀ t ∈ newEnvironment,
      t.rets.length + t.args.length ≤ 1 ∧ ∀ code ∈ t.rets ++ t.args, code ≤ 4 := by
    simp [newEnvironment, addFuncType]
  exact ⟨Nat.le_trans (few t inside).1 (Nat.le_of_ble_eq_true rfl), (few t inside).2⟩

end VelumOS.Spec.Parser
