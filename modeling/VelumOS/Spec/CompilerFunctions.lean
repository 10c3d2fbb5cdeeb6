import VelumOS.Spec.CompilerPrologue

/-!
# Functions

A call finds its arguments behind the results and the code finds zeros in its locals and
the constants in their slots, so the code of a function does what the call of its body
does.
-/
namespace VelumOS.Spec.Compiler
open Base.Wasm Source.M3 Source.M3.Compilation

/-- The arguments, where the caller puts them: two slots apart, behind the results. -/
def ArgsAt (m : Machine) (slot : Nat) (args : List Value) : Prop :=
  ∀ (i : Nat) (value : Value), args[i]? = some value →
    m.word value.type (slot + i * ioSlotCount) = value.word

theorem argEntries_slot {slot : Nat} {types : List ValType} {e : Entry}
    (inside : e ∈ argEntries slot types) :
    slot ≤ e.slot ∧ e.slot + getTypeNumSlots e.type ≤ slot + types.length * ioSlotCount := by
  induction types generalizing slot with
  | nil => cases inside
  | cons type types ih =>
    rw [List.length_cons, Nat.succ_mul]
    rcases List.mem_cons.mp inside with rfl | inside
    · have few := numSlots_le type
      dsimp only [ioSlotCount]
      omega
    · obtain ⟨low, high⟩ := ih inside
      omega

/-- The entries of the arguments hold them. -/
theorem map_argEntries {m : Machine} {slot : Nat} {args : List Value} (placed : ArgsAt m slot args)
    (low : slot + args.length * ioSlotCount ≤ reg0SlotAlias) :
    (argEntries slot (args.map Value.type)).map (valueOf m) = args := by
  induction args generalizing slot with
  | nil => rfl
  | cons value args ih =>
    rw [List.length_cons, Nat.succ_mul] at low
    have first := placed 0 value rfl
    rw [Nat.zero_mul, Nat.add_zero] at first
    have inSlot : slot < reg0SlotAlias := by
      simp only [ioSlotCount] at low
      omega
    rw [List.map_cons, argEntries, List.map_cons, valueOf_slot inSlot, first]
    congr 1
    refine ih (fun i value found => ?_) (by omega)
    have next := placed (i + 1) value found
    rw [Nat.succ_mul] at next
    rwa [Nat.add_assoc, Nat.add_comm ioSlotCount]

section Frame
variable {type : FunctionType} {body : Body} {behind : List UInt8} {locals : List Entry}
  {numLocalSlots : Nat} {o : Compilation} {f : M3Function} {m : Machine} {args : List Value}

/-- The slots of the frame as the entry leaves them. -/
theorem frame_slots (first : f.numRetAndArgSlots = o.slotFirstLocalIndex)
    (size : o.slotFirstConstIndex = f.numRetAndArgSlots + f.numLocalSlots) (slot : Nat) :
    (slot < o.slotFirstLocalIndex → (f.frame m).slots slot = m.slots slot) ∧
    (o.slotFirstLocalIndex ≤ slot → slot < o.slotFirstConstIndex →
      (f.frame m).slots slot = 0) ∧
    (o.slotFirstConstIndex ≤ slot → ∀ word,
      f.constants[slot - o.slotFirstConstIndex]? = some word →
        (f.frame m).slots slot = word) := by
  simp only [M3Function.frame, first]
  rw [first] at size
  rw [← size]
  refine ⟨fun low => if_pos low, fun above below => ?_, fun above word found => ?_⟩
  · rw [if_neg (by omega), if_pos below]
  · rw [if_neg (by omega), if_neg (by omega), found, Option.getD_some]

/-- Arguments, zeros and constants: the state that the code starts in. -/
theorem holds_frame {final : Compilation} {dyn : List Entry}
    (started : Started type body behind locals numLocalSlots o)
    (validFinal : Valid (type.rets.length * ioSlotCount)
      (argEntries (type.rets.length * ioSlotCount) type.args ++ locals) dyn final)
    (later : Extends o final) (first : f.numRetAndArgSlots = o.slotFirstLocalIndex)
    (size : f.numLocalSlots = numLocalSlots)
    (constants : f.constants = (List.range (final.slotMaxConstIndex - final.slotFirstConstIndex)).map
      final.constants)
    (room : final.maxStackSlots ≤ m.room) (typed : args.map Value.type = type.args)
    (placed : ArgsAt m (type.rets.length * ioSlotCount) args) :
    Holds final (argEntries (type.rets.length * ioSlotCount) type.args ++ locals) []
      ⟨args ++ body.locals.map (fun type => ⟨type, 0⟩), []⟩ (f.frame m) := by
  have whole : o.slotFirstConstIndex = f.numRetAndArgSlots + f.numLocalSlots := by
    rw [first, size]
    exact started.firstConst
  have frame := frame_slots (m := m) first whole
  have firstLocal := started.firstLocal
  have ends := started.valid.locals
  have few : o.slotFirstConstIndex ≤ reg0SlotAlias := by
    have low := Nat.le_trans started.valid.constLow started.valid.constHigh
    have high := started.valid.dynamicHigh
    exact Nat.le_trans low (Nat.le_trans (Nat.le_of_lt high) (by decide))
  have count : type.args.length = args.length := by rw [← typed, List.length_map]
  refine ⟨room, ?_, rfl, ?_⟩
  · rw [List.map_append]
    congr 1
    · rw [← typed]
      refine map_argEntries (fun i value found => ?_) ?_
      · refine (word_congr fun s covered => (frame s).1 ?_).trans (placed i value found)
        obtain ⟨inside, -⟩ := List.getElem?_eq_some_iff.mp found
        have few := numSlots_le value.type
        have upper := covered.2
        have index : i * ioSlotCount + ioSlotCount ≤ args.length * ioSlotCount := by
          rw [← Nat.succ_mul]
          exact Nat.mul_le_mul_right _ inside
        rw [firstLocal, count]
        dsimp only at upper
        simp only [ioSlotCount] at upper index ⊢
        omega
      · rw [← count, ← firstLocal]
        have low := started.firstConst
        omega
    · rw [← started.types, List.map_map]
      refine List.map_congr_left fun e inside => ?_
      obtain ⟨-, high⟩ := ends e (List.mem_append_right _ inside)
      have low := started.low e inside
      have some := numSlots_pos e.type
      rw [valueOf_entry (by omega), Function.comp_apply]
      congr 1
      have zero : ∀ s, Covers e s → (f.frame m).slots s = 0 := fun s covered =>
        (frame s).2.1 (Nat.le_trans low covered.1) (Nat.lt_of_lt_of_le covered.2 high)
      obtain ⟨slot, type⟩ := e
      cases type with
      | i32 => exact zero slot (covers_self ⟨slot, .i32⟩)
      | i64 =>
        have lower := zero slot (covers_self ⟨slot, .i64⟩)
        have upper := zero (slot + 1) ⟨Nat.le_succ _, by simp [getTypeNumSlots]⟩
        show (f.frame m).slots (slot + 1) ++ (f.frame m).slots slot = (0 : BitVec 64)
        rw [lower, upper]
        rfl
  · intro slot low high used
    have below := validFinal.table slot low high used
    refine (frame slot).2.2 (by rw [← later.firstConst]; exact low) _ ?_
    rw [constants, ← later.firstConst, List.getElem?_map, List.getElem?_range (by omega)]
    rfl

end Frame

/-- Compiled code that means the body, whatever the machine, its arguments in place. -/
structure Means (type : FunctionType) (body : Body) (f : M3Function) : Prop where
  small : f.maxStackSlots ≤ maxFunctionSlots
  code : ∃ pc, f.compiled = .op .Entry :: .function :: pc ∧
    ∀ m args, args.map Value.type = type.args → ArgsAt m (type.rets.length * ioSlotCount) args →
      f.maxStackSlots ≤ m.room →
      (∀ results, body.call type.rets args = some (.ok results) →
        ∃ m', exec pc (f.frame m) = .returned m' ∧ ResultsAt m' results) ∧
      ∀ trap, body.call type.rets args = some (.error trap) →
        exec pc (f.frame m) = .trapped trap

theorem compileFunction_means {others : Others} {type : FunctionType} {body : Body}
    {wasm : List UInt8} {f : M3Function} (encodes : EncodesBody body wasm)
    (unshared : allUnshared (type.args ++ body.locals) [] body.instrs = true)
    (compiled : compileFunction others type wasm = .ok f) : Means type body f := by
  obtain ⟨⟨numLocalSlots, o⟩, prologue, rest⟩ := ok_of_bind compiled
  obtain ⟨code, locals, encodesCode, started⟩ := compilePrologue_spec encodes prologue
  obtain ⟨final, statements, rest⟩ := ok_of_bind rest
  have types : (argEntries (type.rets.length * ioSlotCount) type.args ++ locals).map Entry.type =
      type.args ++ body.locals := by
    have argTypes : ∀ (slot : Nat) (args : List ValType),
        (argEntries slot args).map Entry.type = args := by
      intro slot args
      induction args generalizing slot with
      | nil => rfl
      | cons type args ih => rw [argEntries, List.map_cons, ih]
    rw [List.map_append, argTypes, started.types]
  rw [← types] at unshared
  obtain ⟨words, dyn, o₁, last, passes, ends, rfl, simulates⟩ := compileBlock_spec
    encodesCode (started.valid.emit [.op .Entry, .function]) .nil unshared started.wasm statements
  obtain ⟨returned, endWords, passesEnd, results⟩ :=
    compileEnd_spec passes.valid (Nat.le_refl _) ends
  split at rest
  · cases rest
  obtain rfl := Except.ok.inj rest
  -- the page: the entry, the words of the code and those of the end
  have page : last.page = .op .Entry :: .function :: (words ++ endWords) := by
    rw [passesEnd.page, passes.page]
    simp [Compilation.emit, started.page]
  have keeps : Extends o o₁ := ⟨passes.keeps.firstConst, passes.keeps.firstDynamic,
    passes.keeps.maxStack, passes.keeps.table⟩
  have keeps' : Extends o₁ last := passesEnd.keeps
  refine ⟨passesEnd.valid.maxHigh, words ++ endWords, page, fun m args typed placed room => ?_⟩
  have validEnd := passesEnd.valid
  have holds := holds_frame (f := ⟨last.page, last.maxStackSlots,
    type.rets.length * ioSlotCount, o.slotFirstLocalIndex, numLocalSlots, _⟩) started validEnd
    (keeps.trans keeps') rfl rfl rfl room typed placed
  obtain ⟨simulatesOk, simulatesTrap⟩ := simulates last
    ⟨args ++ body.locals.map (fun type => ⟨type, 0⟩), []⟩ keeps'
  refine ⟨fun results_ called => ?_, fun trap called => ?_⟩
  · obtain ⟨s, ran, rfl, -⟩ := Body.call_ok called
    obtain ⟨m₁, executed, holds₁⟩ := simulatesOk s ran _ endWords holds
    obtain ⟨m', returns, at_⟩ := results last s m₁ [] (Extends.refl last) holds₁
    rw [List.append_nil] at returns
    exact ⟨m', executed.trans returns, at_⟩
  · exact simulatesTrap trap (Body.call_error called) _ endWords holds

/-- The call on the machine: the entry, and the code behind it. -/
theorem Means.run {type : FunctionType} {body : Body} {f : M3Function} {m : Machine}
    {args : List Value} (means : Means type body f) (typed : args.map Value.type = type.args)
    (placed : ArgsAt m (type.rets.length * ioSlotCount) args) :
    (m.room ≤ f.maxStackSlots → f.run m = .stackOverflow) ∧
    (f.maxStackSlots < m.room →
      (∀ results, body.call type.rets args = some (.ok results) →
        ∃ m', f.run m = .returned m' ∧ ResultsAt m' results) ∧
      ∀ trap, body.call type.rets args = some (.error trap) → f.run m = .trapped trap) := by
  obtain ⟨pc, code, does⟩ := means.code
  have run : f.run m =
      if f.maxStackSlots < m.room then exec pc (f.frame m) else .stackOverflow := by
    unfold M3Function.run
    rw [code]
  refine ⟨fun short => ?_, fun room => ?_⟩
  · rw [run, if_neg (Nat.not_lt.mpr short)]
  · rw [run, if_pos room]
    exact does m args typed placed (Nat.le_of_lt room)

end VelumOS.Spec.Compiler
