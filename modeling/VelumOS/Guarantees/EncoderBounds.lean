import VelumOS.Source.Main
import VelumOS.Spec.Requests
import VelumOS.Spec.Connections

/-!
# What the encoder does not check

`velum_spawn_wasm` refuses files of more than 2000 octets and checks nothing else: a
failed `ftell` gives -1, which `fread` and `memcpy` take for 2 ^ 64 - 1, the argument
blob is copied at whatever length it has, and `strncpy(.., 31)` leaves the last octet of
the name field as it was.
-/
namespace VelumOS.Guarantees.EncoderBounds
open VelumOS.Source VelumOS.Spec Base.Octets Base.CString

/-- For every state and old memory the call returns without an overrun, and the name in
what it sends is terminated. -/
structure EncoderSafe (f : File) (func : List UInt8) (args : List (List UInt8)) : Prop where
  returns : ∀ ctx s, ∃ after actions,
    velumSpawnWasm ctx (some f) func args s = .ok (after, actions)
  terminated : ∀ ctx s after actions,
    velumSpawnWasm ctx (some f) func args s = .ok (after, actions) →
      ∀ call task, .dispatched call task ∈ actions →
        0 ∈ (WasmArgs.view task.msg.payload).funcName.cells

/-- The size is not negative, all parts fit the payload, and the name has at most 30
octets. -/
def InputsFit (f : File) (func : List UInt8) (args : List (List UInt8)) : Prop :=
  0 ≤ f.fsize ∧ 49 + f.fsize + (pack args).length ≤ 4096 ∧
    (func.takeWhile (· ≠ 0)).length ≤ 30

/-- A name of at most 30 octets leaves room for a NUL, whatever the field held. -/
theorem zero_mem_of_short (field : Block UInt8 32) (text : List UInt8)
    (short : (text.takeWhile (· ≠ 0)).length ≤ 30) : 0 ∈ (strncpy31 field text).cells := by
  simp only [strncpy31, Block.overlay, List.mem_append, List.mem_replicate]
  refine .inl (.inr ⟨?_, trivial⟩)
  rw [List.length_take]
  omega

/-- A longer name fills 31 octets and leaves the last one. -/
theorem zero_notMem_of_long (field : Block UInt8 32) (text : List UInt8)
    (long : 31 ≤ (text.takeWhile (· ≠ 0)).length) (full : 0 ∉ field.cells) :
    0 ∉ (strncpy31 field text).cells := by
  have whole : ((text.takeWhile (· ≠ 0)).take 31).length = 31 := by
    rw [List.length_take]
    omega
  simp only [strncpy31, Block.overlay, whole, Nat.sub_self, List.replicate_zero, List.append_nil,
    List.mem_append, not_or]
  constructor
  · intro member
    have nonzero := List.mem_takeWhile_imp (List.mem_of_mem_take member)
    exact absurd nonzero (by decide)
  · intro member
    exact full (List.mem_of_mem_drop member)

/-- A `long` that passes the check and is in range of the buffer is not negative. -/
theorem sizeT_of_passes (fsize : Int) (long : -2 ^ 63 ≤ fsize) (passes : fsize ≤ 2000) :
    sizeT fsize ≤ 2048 ↔ 0 ≤ fsize := by
  unfold sizeT
  omega

/-- From a node with a worker the call gets as far as sending. -/
theorem velumSpawnWasm_ready {ctx : SpawnContext} {f : File} {func : List UInt8}
    {args : List (List UInt8)} {after : Node} {actions : List Action} (passes : f.fsize ≤ 2000)
    (success : velumSpawnWasm ctx (some f) func args readyTwo = .ok (after, actions)) :
    ∃ buffer msg, wasmRequest (ctx.wasmArgs 0) (ctx.msg 0) 1 (jobIdOf ctx) buffer f.fsize func
        args.length (pack args) = .ok msg ∧ actions = [.dispatched .spawnWasm ⟨2, fd5, msg⟩] := by
  have named : readyTwo.myNodeId = 1 := rfl
  have sent := velumSpawnWasm_sends passes readyTwo_winner readyTwo_target success
  rwa [named] at sent

/-- Over a name field without NUL a call that is safe fits. -/
theorem inputsFit_of_safe (f : File) (func : List UInt8) (args : List (List UInt8))
    (long : -2 ^ 63 ≤ f.fsize) (passes : f.fsize ≤ 2000) (safe : EncoderSafe f func args) :
    InputsFit f func args := by
  let ctx : SpawnContext :=
    { SpawnContext.zeroed with wasmArgs := fun _ => ⟨0, .fill 32 1, 0, 0⟩ }
  obtain ⟨after, actions, success⟩ := safe.returns ctx readyTwo
  obtain ⟨buffer, msg, built, rfl⟩ := velumSpawnWasm_ready passes success
  obtain ⟨inBuffer, fits⟩ := partsFit_of_built built
  have natural := (sizeT_of_passes f.fsize long passes).mp inBuffer
  have size := sizeT_of_natural f.fsize natural passes
  refine ⟨natural, by omega, ?_⟩
  by_contra tooLong
  have zero := safe.terminated ctx readyTwo after _ success _ _ (List.mem_singleton_self _)
  simp only [wasmArgs_of_built built] at zero
  exact zero_notMem_of_long _ func (by omega) (by decide) zero

/-- For every file that passes the check, every name and every argument list, the
encoder is safe if and only if the size is not negative, the parts fit the payload and
the name has at most 30 octets. -/
theorem encoder_safe_iff (f : File) (func : List UInt8) (args : List (List UInt8))
    (long : -2 ^ 63 ≤ f.fsize) (passes : f.fsize ≤ 2000) :
    EncoderSafe f func args ↔ InputsFit f func args := by
  constructor
  · exact inputsFit_of_safe f func args long passes
  · intro inputs
    obtain ⟨natural, fits, short⟩ := inputs
    constructor
    · exact returns_of_fit f func args passes natural fits
    · intro ctx s after actions success call task member
      obtain ⟨buffer, built⟩ := built_of_dispatched success call task member
      rw [wasmArgs_of_built built]
      exact zero_mem_of_short _ func short

/-- A file of two octets, the name `f` and one argument. -/
theorem encoder_safe_small : EncoderSafe ⟨2, [0, 97]⟩ [102] [[49, 48]] :=
  (encoder_safe_iff ⟨2, [0, 97]⟩ [102] [[49, 48]] (by decide) (by decide)).mpr
    ⟨by decide, by decide, by decide⟩

/-- `wasm m` and a name of 31 letters. -/
def longName : List UInt8 := [119, 97, 115, 109, 32, 109, 32] ++ List.replicate 31 97

/-- Its name need not be terminated in the field. -/
theorem long_name_unsafe : ¬ ∀ (line : List UInt8) (command : WasmCommand),
    wasmCommand line = some command →
    ∀ f : File, -2 ^ 63 ≤ f.fsize → f.fsize ≤ 2000 → EncoderSafe f command.func command.args := by
  intro always
  have safe := always longName ⟨[109], List.replicate 31 97, []⟩ (by decide) ⟨2, [0, 97]⟩
    (by decide) (by decide)
  have short := (inputsFit_of_safe _ _ _ (by decide) (by decide) safe).2.2
  exact absurd short (by decide)

end VelumOS.Guarantees.EncoderBounds
