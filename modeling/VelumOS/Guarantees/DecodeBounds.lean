import VelumOS.Source.Engine

/-!
# Decoding of an untrusted Wasm request

Nothing in a received payload is checked before it is used: `binary_size` places
the argument strings, `argc` counts the scans and each string ends at the next
NUL. `Enclosed` is that a computation never reads outside its object, and the
lemmas below give, for each read of the decoding, when it is. Handing a slice to the
interpreter counts as reading it. `args_size` is not used at all.
-/
namespace VelumOS.Guarantees.DecodeBounds
open VelumOS.Source Base.Octets Base.CString

/-- The computation does not read outside a field or the payload. -/
def Enclosed {α : Type} (read : Except Fault α) : Prop :=
  ∀ region, read ≠ .error (.outOfBounds region)

theorem Enclosed.ok {α : Type} (value : α) : Enclosed (.ok value) := nofun

/-- A sequence is enclosed when each part that runs is. -/
theorem enclosed_bind {α β : Type} (step : Except Fault α) (next : α → Except Fault β) :
    Enclosed (step >>= next) ↔ Enclosed step ∧ ∀ value, step = .ok value → Enclosed (next value) := by
  cases step with
  | error fault => simp [Enclosed, bind, Except.bind]
  | ok value =>
    simp only [Except.ok.injEq, forall_eq']
    exact ⟨fun inside => ⟨.ok value, inside⟩, fun both => both.2⟩

theorem enclosed_readCString (region : Region) (memory : List UInt8) :
    Enclosed (readCString region memory) ↔ 0 ∈ memory := by
  rw [← scan_isSome_iff, readCString]
  cases scan memory <;> simp [Enclosed]

theorem enclosed_readBinary (memory : List UInt8) (binSize : UInt32) :
    Enclosed (readBinary memory binSize) ↔ binSize.toNat ≤ memory.length := by
  unfold readBinary
  split
  · next inside => exact ⟨fun _ => inside, fun _ => .ok _⟩
  · next outside => simp [Enclosed, outside]

/-- Each argument needs a NUL of its own. -/
theorem enclosed_parseArgs (argc : Nat) (memory : List UInt8) :
    Enclosed (parseArgs argc memory) ↔ argc ≤ memory.count 0 := by
  rw [parseArgs_eq, ← scanMany_isSome_iff]
  cases scanMany argc memory <;> simp [Enclosed]

/-- The guest cannot make the decoding read outside. -/
theorem enclosed_sandboxResult (type : FuncType) (outcome : RunResult) :
    Enclosed (sandboxResult type outcome) := by
  unfold sandboxResult
  split
  · simp [Enclosed]
  · exact .ok _
  · split <;> exact .ok _

/-- A refusal of the interpreter ends the decoding; the rest has to be enclosed only
if it accepts. -/
theorem enclosed_unless_refused (accepted : Bool) (code : Int32) (next : Except Fault Int32) :
    Enclosed (if (!accepted) = true then pure code else next) ↔
      (accepted = true → Enclosed next) := by
  cases accepted with
  | true => simp
  | false =>
    simp only [Bool.not_false, if_true, Bool.false_eq_true, false_implies, iff_true]
    exact .ok code

/-- The sandbox call reads the name, then the slice, then the strings. -/
theorem enclosed_sandbox (wasm3 : Wasm3) (beyond : UInt32) (binary : List UInt8)
    (binSize : UInt32) (funcName : Block UInt8 32) (argc : UInt32) (rawArgs : List UInt8) :
    Enclosed (executeWasmInSandbox wasm3 beyond binary binSize funcName argc rawArgs) ↔
      0 ∈ funcName.cells ∧ ∀ name, scan funcName.cells = some name →
        wasm3.newEnvironment = true → wasm3.newRuntime = true →
        binSize.toNat ≤ binary.length ∧
          (wasm3.parseModule (binary.take binSize.toNat) = true →
            wasm3.loadModule (binary.take binSize.toNat) = true →
            (wasm3.findFunction (binary.take binSize.toNat) name).isSome →
            argc.toNat ≤ rawArgs.count 0) := by
  unfold executeWasmInSandbox
  rw [enclosed_bind, enclosed_readCString]
  apply and_congr_right
  intro terminated
  obtain ⟨name, found⟩ := Option.isSome_iff_exists.mp ((scan_isSome_iff _).mpr terminated)
  have read : readCString .funcName funcName.cells = .ok name := by rw [readCString, found]
  simp only [read, found, Except.ok.injEq, Option.some.injEq, forall_eq']
  rw [enclosed_unless_refused, enclosed_unless_refused, enclosed_bind, enclosed_readBinary]
  apply imp_congr_right
  intro environment
  apply imp_congr_right
  intro runtime
  apply and_congr_right
  intro inside
  have slice : readBinary binary binSize = .ok (binary.take binSize.toNat) := by
    rw [readBinary, if_pos inside]
  simp only [slice, Except.ok.injEq, forall_eq']
  rw [enclosed_unless_refused, enclosed_unless_refused]
  apply imp_congr_right
  intro parsed
  apply imp_congr_right
  intro loaded
  cases wasm3.findFunction (binary.take binSize.toNat) name with
  | none =>
    simp only [Option.isSome_none, Bool.false_eq_true, false_implies, iff_true]
    exact .ok (-4)
  | some type =>
    simp only [Option.isSome_some, true_implies]
    rw [enclosed_bind, enclosed_parseArgs]
    exact and_iff_left fun _ _ => enclosed_sandboxResult _ _

/-- The name of the request ends inside its field. If the interpreter starts, the
binary ends inside the payload; if it then also accepts the module and finds the
function, there is a NUL behind the binary for each argument. -/
def WellFormed (ctx : ReadContext) (p : Payload) : Prop :=
  let args := WasmArgs.view p
  let slice := (p.cells.drop 49).take args.binarySize.toNat
  0 ∈ args.funcName.cells ∧ ∀ name, scan args.funcName.cells = some name →
    ctx.wasm3.newEnvironment = true → ctx.wasm3.newRuntime = true →
    49 + args.binarySize.toNat ≤ 4096 ∧
      (ctx.wasm3.parseModule slice = true → ctx.wasm3.loadModule slice = true →
        (ctx.wasm3.findFunction slice name).isSome →
        args.argc.toNat ≤ (p.cells.drop (49 + args.binarySize.toNat)).count 0)

/-- Decoding a request stays inside its fields and the payload, or the request is
rejected, exactly when the payload is well formed for the interpreter. -/
theorem decoding_enclosed_iff (ctx : ReadContext) (p : Payload) :
    Enclosed (runWasmRequest ctx p) ↔ WellFormed ctx p := by
  have size := p.size
  have room : (p.cells.drop 49).length = 4047 := by simp [size]
  have fits : (WasmArgs.view p).binarySize.toNat ≤ 4047 ↔
      49 + (WasmArgs.view p).binarySize.toNat ≤ 4096 := by omega
  unfold runWasmRequest WellFormed
  simp only [enclosed_bind, enclosed_readCString, enclosed_sandbox, room, fits]
  constructor
  · intro inside
    obtain ⟨terminated, rest⟩ := inside
    obtain ⟨name, found⟩ := Option.isSome_iff_exists.mp ((scan_isSome_iff _).mpr terminated)
    exact rest name (by rw [readCString, found])
  · intro wellFormed
    exact ⟨wellFormed.1, fun _ _ => wellFormed⟩

/-- A payload of ones: its name has no end and its binary is 4 GiB long. -/
theorem decoding_of_ones : ¬ ∀ (ctx : ReadContext) (p : Payload),
    Enclosed (runWasmRequest ctx p) := by
  intro always
  have inside := always .refusing (.fill 4096 255)
  unfold runWasmRequest at inside
  rw [enclosed_bind, enclosed_readCString] at inside
  have octet : (0 : UInt8) ∈ List.replicate 4096 255 :=
    List.mem_of_mem_drop (List.mem_of_mem_take inside.1)
  exact absurd (List.eq_of_mem_replicate octet) (by decide)

end VelumOS.Guarantees.DecodeBounds
