import VelumOS.Spec.Interpreter
import VelumOS.Guarantees.WireRoundTrip

/-!
# Arguments of the guest

`execute_wasm_in_sandbox` passes `m3_Call` a pointer to an `int` for each argument, and
`m3_Call` reads eight octets through it where the parameter is an `i64`: the `int` and the
one behind it, or what the heap holds behind the last. The guest gets what was parsed
exactly if that word is the sign extension of the `int`, so for all arguments and all
memory only if no parameter is an `i64`.
-/
namespace VelumOS.Guarantees.GuestArguments
open VelumOS.Source VelumOS.Spec Base.Octets Base.CString Base.WasmModule WireRoundTrip

/-- The arguments of `execute_wasm_in_sandbox`, with the interpreter and the heap that it
finds. -/
structure SandboxCall where
  wasm3 : Wasm3
  beyond : UInt32
  binary : List UInt8
  binSize : UInt32
  funcName : Block UInt8 32
  argc : UInt32
  rawArgs : List UInt8

namespace SandboxCall

def run (call : SandboxCall) : Except Fault Int32 :=
  executeWasmInSandbox call.wasm3 call.beyond call.binary call.binSize call.funcName call.argc
    call.rawArgs

/-- The call with another guest behind the function. -/
def withGuest (call : SandboxCall) (guest : List Value → RunResult) : SandboxCall :=
  { call with wasm3 := { call.wasm3 with runCode := fun _ _ values => guest values } }

/-- The function is found with a type, and the arguments are as many strings as it has
parameters. -/
structure Found (call : SandboxCall) (slice : List UInt8) (type : FuncType)
    (texts : List (List UInt8)) : Prop where
  named : ∃ name, readCString .funcName call.funcName.cells = .ok name ∧
    Accepts call.wasm3 slice name type
  slice : readBinary call.binary call.binSize = .ok slice
  texts : scanMany call.argc.toNat call.rawArgs = some texts
  matching : call.argc.toNat = type.args.length

/-- The guest is run on the values: whatever it makes of them is what the call returns. -/
def Receives (call : SandboxCall) (type : FuncType) (values : List Value) : Prop :=
  ∀ guest, (call.withGuest guest).run = sandboxResult type (guest values)

end SandboxCall

/-- A parameter of the type holds the integer. -/
inductive Holds : ValueType → Int32 → Value → Prop
  | i32 (n : Int32) : Holds .i32 n (.i32 n.toUInt32)
  | i64 (n : Int32) : Holds .i64 n (.i64 n.toInt64.toUInt64)

/-- Each parameter holds the integer of its argument. -/
def AsParsed (types : List ValueType) (ints : List Int32) (values : List Value) : Prop :=
  ∀ (i : Nat) type n, types[i]? = some type → ints[i]? = some n →
    ∃ value, values[i]? = some value ∧ Holds type n value

/-- For every interpreter that finds a function with these parameters, and all memory
behind `int_args`: if `m3_Call` gets past the start function of the module, the guest
receives the arguments as parsed, and if that traps, the sandbox returns an error. -/
def ArgumentsReach (types : List ValueType) (texts : List (List UInt8)) : Prop :=
  ∀ (call : SandboxCall) (slice : List UInt8) (type : FuncType),
    call.Found slice type texts → type.args = types →
    (∀ slots, call.wasm3.runStart slice = .returned slots →
      ∃ values, call.Receives type values ∧ AsParsed types (texts.map atoi) values) ∧
    (call.wasm3.runStart slice = .trap → call.run = .ok (-5))

/-! ## The words of an `i64` -/

/-- The upper half of the 64-bit number. -/
def signWord (n : Int32) : Int32 := if n.toInt < 0 then -1 else 0

theorem wide_iff (n : Int32) (high : UInt32) :
    n.toUInt32.toUInt64 + high.toUInt64 * 4294967296 = n.toInt64.toUInt64 ↔
      high = (signWord n).toUInt32 := by
  have low : n.toInt = (n.toUInt32.toNat : Int).bmod (2 ^ 32) := BitVec.toInt_eq_toNat_bmod _
  have wide : n.toInt64.toInt = (n.toInt64.toUInt64.toNat : Int).bmod (2 ^ 64) :=
    BitVec.toInt_eq_toNat_bmod _
  have same : n.toInt64.toInt = n.toInt := Int32.toInt_toInt64 n
  have lowBound := n.toUInt32.toNat_lt
  have wideBound := n.toInt64.toUInt64.toNat_lt
  have highBound := high.toNat_lt
  have sign : (signWord n).toUInt32.toNat = if n.toInt < 0 then 4294967295 else 0 := by
    unfold signWord
    split <;> rfl
  rw [← UInt64.toNat_inj, ← UInt32.toNat_inj, sign]
  simp only [UInt64.toNat_add, UInt64.toNat_mul, UInt32.toNat_toUInt64, UInt64.reduceToNat]
  rw [Int.bmod] at low wide
  split at low <;> split at wide <;> split <;> omega

/-- Each `i64` has a further argument behind it, and that is its upper half. -/
def SignExtended (types : List ValueType) (ints : List Int32) : Prop :=
  ∀ (i : Nat) n, types[i]? = some .i64 → ints[i]? = some n → ints[i + 1]? = some (signWord n)

/-- What is loaded for a parameter holds its integer: an `i32` always, and an `i64` if and
only if the word behind is its upper half. -/
theorem holds_loadArg_iff (ints : List Int32) (beyond : UInt32) (i : Nat) (n : Int32)
    (entry : ints[i]? = some n) (type : ValueType) (number : type = .i32 ∨ type = .i64) :
    (∃ value, loadArg ints beyond i type = some value ∧ Holds type n value) ↔
      (type = .i64 → intAt ints beyond (i + 1) = (signWord n).toUInt32) := by
  have own : intAt ints beyond i = n.toUInt32 := by simp only [intAt, entry]
  rcases number with rfl | rfl
  · constructor
    · intro _ other
      cases other
    · intro _
      exact ⟨_, rfl, own ▸ .i32 n⟩
  · rw [← wide_iff, ← own]
    constructor
    · intro held _
      obtain ⟨value, loaded, holds⟩ := held
      cases holds
      exact Value.i64.inj (Option.some.inj loaded)
    · intro same
      refine ⟨_, rfl, ?_⟩
      rw [same rfl]
      exact .i64 n

/-! ## What the guest receives -/

theorem loadArgs_getElem? (ints : List Int32) (beyond : UInt32) (types : List ValueType) (i : Nat)
    (values : List Value) (loaded : loadArgs ints beyond i types = some values) (k : Nat)
    (type : ValueType) (entry : types[k]? = some type) :
    values[k]? = loadArg ints beyond (i + k) type := by
  induction types generalizing i values k with
  | nil => cases entry
  | cons first rest ih =>
    rw [loadArgs] at loaded
    cases here : loadArg ints beyond i first with
    | none => simp [here] at loaded
    | some value =>
      simp only [here, Option.map_eq_some_iff] at loaded
      obtain ⟨later, behind, rfl⟩ := loaded
      cases k with
      | zero =>
        cases entry
        exact here.symm
      | succ k =>
        rw [List.getElem?_cons_succ, ih (i + 1) later behind k entry, Nat.add_right_comm,
          Nat.add_assoc]

/-- Numbers are always loaded. -/
theorem loadArgs_isSome (ints : List Int32) (beyond : UInt32) (types : List ValueType) (i : Nat)
    (numbers : ∀ type ∈ types, type = .i32 ∨ type = .i64) :
    ∃ values, loadArgs ints beyond i types = some values := by
  induction types generalizing i with
  | nil => exact ⟨[], rfl⟩
  | cons first rest ih =>
    obtain ⟨later, behind⟩ := ih (i + 1) fun type member => numbers type (List.mem_cons_of_mem _ member)
    have loaded : ∃ value, loadArg ints beyond i first = some value := by
      rcases numbers first List.mem_cons_self with rfl | rfl
      · exact ⟨_, rfl⟩
      · exact ⟨_, rfl⟩
    obtain ⟨value, here⟩ := loaded
    exact ⟨value :: later, by simp only [loadArgs, here, behind, Option.map_some]⟩

section Call
variable {call : SandboxCall} {slice : List UInt8} {type : FuncType} {texts : List (List UInt8)}

/-- A call that finds its function runs it on the parsed arguments. -/
theorem run_of_found (found : call.Found slice type texts) : ∃ name, call.run = sandboxResult type
    (m3Call call.wasm3 slice name type type.args.length (texts.map atoi) call.beyond) := by
  obtain ⟨name, named, accepts⟩ := found.named
  have args : parseArgs type.args.length call.rawArgs = .ok (texts.map atoi) := by
    rw [← found.matching, parseArgs_eq, found.texts]
  refine ⟨name, ?_⟩
  simp only [SandboxCall.run, executeWasmInSandbox, named, found.slice, args,
    accepts.newEnvironment, accepts.newRuntime, accepts.parseModule, accepts.loadModule,
    accepts.findFunction, bind, Except.bind, Bool.not_true, Bool.false_eq_true, if_false,
    found.matching]

theorem found_withGuest (found : call.Found slice type texts) (guest : List Value → RunResult) :
    (call.withGuest guest).Found slice type texts := by
  obtain ⟨⟨name, named, accepts⟩, binary, walked, matching⟩ := found
  exact ⟨⟨name, named, accepts.newEnvironment, accepts.newRuntime, accepts.parseModule,
    accepts.loadModule, accepts.findFunction⟩, binary, walked, matching⟩

/-- Behind a start function that returned, the guest receives what was loaded. -/
theorem receives_loaded (found : call.Found slice type texts) {slots : List UInt64}
    (started : call.wasm3.runStart slice = .returned slots) {values : List Value}
    (loaded : loadArgs (texts.map atoi) call.beyond 0 type.args = some values) :
    call.Receives type values := by
  intro guest
  obtain ⟨name, ran⟩ := run_of_found (found_withGuest found guest)
  rw [ran]
  simp only [m3Call, SandboxCall.withGuest, started, loaded, ne_eq, not_true_eq_false, if_false]

/-- It receives nothing else: a guest can tell two lists of values apart. -/
theorem receives_unique {first second : List Value} (one : call.Receives type first)
    (two : call.Receives type second) : first = second := by
  by_contra different
  have outcomes := (one fun values => if values = first then .trap else .hang).symm.trans
    (two fun values => if values = first then .trap else .hang)
  rw [if_pos rfl, if_neg (Ne.symm different)] at outcomes
  cases outcomes

/-- A start function that traps makes `m3_Call` fail. -/
theorem run_of_trap (found : call.Found slice type texts)
    (trapped : call.wasm3.runStart slice = .trap) : call.run = .ok (-5) := by
  obtain ⟨name, ran⟩ := run_of_found found
  rw [ran]
  simp only [m3Call, trapped, ne_eq, not_true_eq_false, if_false]
  rfl

end Call

/-- The loaded values are as parsed if and only if the word behind each `i64` is its upper
half. -/
theorem asParsed_iff {types : List ValueType} {ints : List Int32} {beyond : UInt32}
    {values : List Value} (numbers : ∀ type ∈ types, type = .i32 ∨ type = .i64)
    (loaded : loadArgs ints beyond 0 types = some values) :
    AsParsed types ints values ↔ ∀ (i : Nat) n, types[i]? = some .i64 → ints[i]? = some n →
      intAt ints beyond (i + 1) = (signWord n).toUInt32 := by
  have parameter (i : Nat) (type : ValueType) (entry : types[i]? = some type) :
      values[i]? = loadArg ints beyond i type := by
    rw [loadArgs_getElem? ints beyond types 0 values loaded i type entry, Nat.zero_add]
  constructor
  · intro parsed i n wide entry
    have held := parsed i .i64 n wide entry
    rw [parameter i .i64 wide] at held
    exact (holds_loadArg_iff ints beyond i n entry .i64 (.inr rfl)).mp held rfl
  · intro upper i type n listed entry
    rw [parameter i type listed]
    apply (holds_loadArg_iff ints beyond i n entry type (numbers type (List.mem_of_getElem? listed))).mpr
    rintro rfl
    exact upper i n listed entry

/-- A call that finds a function with these parameters, in an interpreter whose guest does
nothing. -/
def probe (types : List ValueType) (texts : List (List UInt8)) (beyond : UInt32) : SandboxCall where
  wasm3 :=
    { Wasm3.refusing with
      parseModule := fun _ => true
      loadModule := fun _ => true
      findFunction := fun _ _ => some ⟨types, [.i32]⟩
      runStart := fun _ => .returned [] }
  beyond := beyond
  binary := []
  binSize := 0
  funcName := .fill 32 0
  argc := UInt32.ofNat texts.length
  rawArgs := pack texts

theorem found_probe (types : List ValueType) (texts : List (List UInt8)) (beyond : UInt32)
    (few : types.length < 2 ^ 32) (matching : texts.length = types.length)
    (clean : ∀ text ∈ texts, 0 ∉ text) :
    (probe types texts beyond).Found [] ⟨types, [.i32]⟩ texts := by
  have count : (UInt32.ofNat texts.length).toNat = texts.length := by
    rw [UInt32.toNat_ofNat']
    omega
  refine ⟨⟨[], rfl, rfl, rfl, rfl, rfl, rfl⟩, rfl, ?_, count.trans matching⟩
  have walked := scanMany_pack texts [] clean
  rwa [List.append_nil, ← count] at walked

/-- What reaches the guest with memory that is no upper half was followed by upper halves. -/
theorem signExtended_of_reach {types : List ValueType} {texts : List (List UInt8)}
    (numbers : ∀ type ∈ types, type = .i32 ∨ type = .i64) (few : types.length < 2 ^ 32)
    (matching : texts.length = types.length) (clean : ∀ text ∈ texts, 0 ∉ text)
    (reach : ArgumentsReach types texts) : SignExtended types (texts.map atoi) := by
  have found := found_probe types texts 1 few matching clean
  obtain ⟨values, received, parsed⟩ := (reach _ _ _ found rfl).1 [] rfl
  obtain ⟨loadedValues, loaded⟩ := loadArgs_isSome (texts.map atoi) 1 types 0 numbers
  cases receives_unique received (receives_loaded found rfl loaded)
  intro i n wide entry
  have upper := (asParsed_iff numbers loaded).mp parsed i n wide entry
  unfold intAt at upper
  split at upper
  · next m behind =>
    have same := congrArg UInt32.toInt32 upper
    rw [Int32.toInt32_toUInt32, Int32.toInt32_toUInt32] at same
    rw [behind, same]
  · unfold signWord at upper
    split at upper <;> exact absurd upper (by decide)

/-- With upper halves behind them, all arguments reach the guest. -/
theorem reach_of_signExtended {types : List ValueType} {texts : List (List UInt8)}
    (numbers : ∀ type ∈ types, type = .i32 ∨ type = .i64)
    (extended : SignExtended types (texts.map atoi)) : ArgumentsReach types texts := by
  rintro call slice type found rfl
  refine ⟨fun slots started => ?_, run_of_trap found⟩
  obtain ⟨values, loaded⟩ := loadArgs_isSome (texts.map atoi) call.beyond type.args 0 numbers
  refine ⟨values, receives_loaded found started loaded, (asParsed_iff numbers loaded).mpr ?_⟩
  intro i n wide entry
  simp only [intAt, extended i n wide entry]

/-- For every signature over `i32` and `i64`: a list of as many arguments reaches the guest
as parsed if and only if each `i64` is followed by its upper half, and all lists do if and
only if no parameter is an `i64`. -/
theorem arguments_reach_iff (types : List ValueType)
    (numbers : ∀ type ∈ types, type = .i32 ∨ type = .i64) (few : types.length < 2 ^ 32) :
    (∀ texts, texts.length = types.length → (∀ text ∈ texts, 0 ∉ text) →
      (ArgumentsReach types texts ↔ SignExtended types (texts.map atoi))) ∧
    ((∀ texts, texts.length = types.length → (∀ text ∈ texts, 0 ∉ text) →
      ArgumentsReach types texts) ↔ ∀ type ∈ types, type = .i32) := by
  constructor
  · intro texts matching clean
    exact ⟨signExtended_of_reach numbers few matching clean, reach_of_signExtended numbers⟩
  · constructor
    · intro always type member
      rcases numbers type member with narrow | rfl
      · exact narrow
      · -- All arguments are 1, which is no upper half.
        obtain ⟨i, wide⟩ := List.mem_iff_getElem?.mp member
        have extended := signExtended_of_reach numbers few (List.length_replicate ..) (by simp)
          (always (List.replicate types.length [49]) (List.length_replicate ..) (by simp))
        rw [List.map_replicate, show atoi [49] = 1 from rfl] at extended
        obtain ⟨inside, _⟩ := List.getElem?_eq_some_iff.mp wide
        have behind := extended i 1 wide (by rw [List.getElem?_replicate, if_pos inside])
        rw [List.getElem?_replicate] at behind
        split at behind
        · exact absurd (Option.some.inj behind) (by decide)
        · cases behind
    · intro narrow texts _ _
      apply reach_of_signExtended numbers
      intro i n wide _
      cases narrow _ (List.mem_of_getElem? wide)

/-! ## Calls of `f("1", "2")` -/

/-- The function `f` of a module, called in the modelled interpreter. -/
def callOneTwo (slice : List UInt8) : SandboxCall where
  wasm3 := modelled
  beyond := 0
  binary := slice
  binSize := UInt32.ofNat slice.length
  funcName := strncpy31 (.fill 32 0) [102]
  argc := 2
  rawArgs := pack [[49], [50]]

/-- Two `i32` parameters get 1 and 2. -/
theorem arguments_reach_narrow : ∃ values,
    (callOneTwo addOctets).Receives addType.funcType values ∧
    AsParsed [.i32, .i32] [1, 2] values := by
  have found : (callOneTwo addOctets).Found addOctets addType.funcType [[49], [50]] :=
    ⟨⟨[102], rfl, rfl, rfl, rfl, rfl, rfl⟩, rfl, rfl, rfl⟩
  have reach := (arguments_reach_iff [.i32, .i32] (by decide) (by decide)).2.mpr (by decide)
    [[49], [50]] rfl (by decide)
  exact (reach _ _ _ found rfl).1 [] rfl

/-- A function of an `i64` and an `i32` that returns the upper half of its first argument,
exported as `f`. -/
def upperOctets : List UInt8 :=
  header ++ [1, 7, 1, 0x60, 2, 0x7e, 0x7f, 1, 0x7f] ++ [3, 2, 1, 0] ++ [7, 5, 1, 1, 0x66, 0, 0] ++
    [10, 10, 1, 8, 0, 0x20, 0, 0x42, 32, 0x88, 0xa7, 0x0b]

/-- An `i64` parameter with the arguments 1 and 2 gets 8589934593, and its upper half is
returned as 2. -/
theorem wide_argument_misread : ¬ ArgumentsReach [.i64, .i32] [[49], [50]] ∧
    (callOneTwo upperOctets).Receives ⟨[.i64, .i32], [.i32]⟩ [.i64 8589934593, .i32 2] ∧
    (callOneTwo upperOctets).run = .ok 2 := by
  have found : (callOneTwo upperOctets).Found upperOctets ⟨[.i64, .i32], [.i32]⟩ [[49], [50]] :=
    ⟨⟨[102], rfl, rfl, rfl, rfl, rfl, rfl⟩, rfl, rfl, rfl⟩
  have started : (callOneTwo upperOctets).wasm3.runStart upperOctets = .returned [] := rfl
  have received : (callOneTwo upperOctets).Receives ⟨[.i64, .i32], [.i32]⟩
      [.i64 8589934593, .i32 2] := receives_loaded found started rfl
  refine ⟨fun reach => ?_, received, rfl⟩
  obtain ⟨values, same, parsed⟩ := (reach _ _ _ found rfl).1 [] started
  cases receives_unique same received
  -- the first value would have to be 1
  obtain ⟨value, first, holds⟩ := parsed 0 .i64 1 rfl rfl
  cases first
  cases holds

end VelumOS.Guarantees.GuestArguments
