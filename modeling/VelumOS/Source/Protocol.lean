import VelumOS.Base.Octets

/-!
# Wire protocol

`common/protocol.h`: the packed structures, field by field and octet by octet.
Enumerations have a fixed underlying type, so any octet is a possible value; the
codes without a name are kept as `other`. A structure is read from a payload by
its `view`, at the offset the code casts it from.
-/
namespace VelumOS.Source
open Base.Octets

inductive MsgType where
  | heartbeat | statusReport | taskRequest | taskResult | taskProgress
  | other (code : UInt8) (unnamed : 5 ≤ code.toNat)
  deriving DecidableEq

def MsgType.code : MsgType → UInt8
  | .heartbeat => 0
  | .statusReport => 1
  | .taskRequest => 2
  | .taskResult => 3
  | .taskProgress => 4
  | .other code _ => code

def MsgType.ofCode (code : UInt8) : MsgType :=
  if unnamed : 5 ≤ code.toNat then .other code unnamed
  else match code.toNat with
    | 0 => .heartbeat
    | 1 => .statusReport
    | 2 => .taskRequest
    | 3 => .taskResult
    | _ => .taskProgress

inductive TaskOp where
  | mathAdd | mathSub | computePi | findPrimes | executeWasm
  | other (code : UInt8) (unnamed : 5 ≤ code.toNat)
  deriving DecidableEq

def TaskOp.code : TaskOp → UInt8
  | .mathAdd => 0
  | .mathSub => 1
  | .computePi => 2
  | .findPrimes => 3
  | .executeWasm => 4
  | .other code _ => code

def TaskOp.ofCode (code : UInt8) : TaskOp :=
  if unnamed : 5 ≤ code.toNat then .other code unnamed
  else match code.toNat with
    | 0 => .mathAdd
    | 1 => .mathSub
    | 2 => .computePi
    | 3 => .findPrimes
    | _ => .executeWasm

/-- `uint8_t payload[4096]`. -/
abbrev Payload := Block UInt8 4096

structure TaskHeader where
  opCode : TaskOp
  jobId : UInt32
  deriving DecidableEq

structure MathArgs where
  a : Int32
  b : Int32
  deriving DecidableEq

structure ComputeArgs where
  iterations : UInt32
  deriving DecidableEq

structure WasmArgs where
  binarySize : UInt32
  funcName : Block UInt8 32
  argc : UInt32
  argsSize : UInt32
  deriving DecidableEq

structure TaskResult where
  jobId : UInt32
  value : Int32
  count : UInt32
  deriving DecidableEq

structure NodeStatus where
  cpuLoad : UInt8
  ramFreeKb : UInt16
  taskQueueLen : UInt8
  deriving DecidableEq

def NodeStatus.calculateScore (status : NodeStatus) : Int :=
  status.ramFreeKb.toNat - status.cpuLoad.toNat * 2 - status.taskQueueLen.toNat * 10

structure Message where
  senderId : UInt16
  type : MsgType
  payload : Payload
  deriving DecidableEq

/-- A message object in zeroed memory. -/
def Message.zeroed : Message := ⟨0, .heartbeat, .fill 4096 0⟩

/-! ## Octets and views -/

def word (b : Block UInt8 4) : UInt32 := UInt32.ofNat (decodeLE b.cells)

def TaskHeader.octets (h : TaskHeader) : List UInt8 :=
  h.opCode.code :: encodeLE 4 h.jobId.toNat

/-- `(TaskHeader *)msg->payload`. -/
def TaskHeader.view (p : Payload) : TaskHeader where
  opCode := .ofCode (p.cells.headD 0)
  jobId := word (p.slice 1 4 (by decide))

/-- `(const MathArgs *)(msg->payload + sizeof(TaskHeader))`. -/
def MathArgs.view (p : Payload) : MathArgs where
  a := (word (p.slice 5 4 (by decide))).toInt32
  b := (word (p.slice 9 4 (by decide))).toInt32

/-- `(const ComputeArgs *)(msg->payload + sizeof(TaskHeader))`. -/
def ComputeArgs.view (p : Payload) : ComputeArgs where
  iterations := word (p.slice 5 4 (by decide))

def WasmArgs.octets (args : WasmArgs) : List UInt8 :=
  encodeLE 4 args.binarySize.toNat ++ (args.funcName.cells ++
    (encodeLE 4 args.argc.toNat ++ encodeLE 4 args.argsSize.toNat))

/-- `(WasmArgs *)(msg_buffer.payload + sizeof(TaskHeader))`. -/
def WasmArgs.view (p : Payload) : WasmArgs where
  binarySize := word (p.slice 5 4 (by decide))
  funcName := p.slice 9 32 (by decide)
  argc := word (p.slice 41 4 (by decide))
  argsSize := word (p.slice 45 4 (by decide))

def TaskResult.octets (r : TaskResult) : List UInt8 :=
  encodeLE 4 r.jobId.toNat ++ (encodeLE 4 r.value.toUInt32.toNat ++ encodeLE 4 r.count.toNat)

/-- `(TaskResult *)msg_buffer.payload`. -/
def TaskResult.view (p : Payload) : TaskResult where
  jobId := word (p.slice 0 4 (by decide))
  value := (word (p.slice 4 4 (by decide))).toInt32
  count := word (p.slice 8 4 (by decide))

def NodeStatus.octets (s : NodeStatus) : List UInt8 :=
  s.cpuLoad :: (encodeLE 2 s.ramFreeKb.toNat ++ [s.taskQueueLen])

/-- The `memcpy` of a status report out of the payload. -/
def NodeStatus.view (p : Payload) : NodeStatus where
  cpuLoad := p.cells.headD 0
  ramFreeKb := UInt16.ofNat (decodeLE (p.slice 1 2 (by decide)).cells)
  taskQueueLen := (p.slice 3 1 (by decide)).cells.headD 0

/-- The `sizeof(Message) = 4099` octets handed to `send`. -/
def Message.octets (m : Message) : Block UInt8 4099 where
  cells := encodeLE 2 m.senderId.toNat ++ ([m.type.code] ++ m.payload.cells)
  size := by simp [m.payload.size]

/-- The message a 4099-octet receive buffer holds. -/
def Message.view (b : Block UInt8 4099) : Message where
  senderId := UInt16.ofNat (decodeLE (b.slice 0 2 (by decide)).cells)
  type := .ofCode ((b.slice 2 1 (by decide)).cells.headD 0)
  payload := b.slice 3 4096 (by decide)

@[simp] theorem MsgType.ofCode_code (t : MsgType) : MsgType.ofCode t.code = t := by
  cases t with
  | other octet unnamed => simp [MsgType.code, MsgType.ofCode, unnamed]
  | _ => rfl

@[simp] theorem MsgType.code_ofCode (code : UInt8) : (MsgType.ofCode code).code = code := by
  unfold ofCode
  split
  · rfl
  · next named =>
    apply UInt8.toNat_inj.mp
    split <;> simp_all [MsgType.code]
    omega

@[simp] theorem TaskOp.ofCode_code (op : TaskOp) : TaskOp.ofCode op.code = op := by
  cases op with
  | other octet unnamed => simp [TaskOp.code, TaskOp.ofCode, unnamed]
  | _ => rfl

theorem word_encodeLE (b : Block UInt8 4) (n : UInt32) (stored : b.cells = encodeLE 4 n.toNat) :
    word b = n := by
  have bound := n.toNat_lt
  rw [word, stored, decodeLE_encodeLE_of_lt 4 _ (by omega), UInt32.ofNat_toNat]

@[simp] theorem TaskHeader.octets_length (h : TaskHeader) : h.octets.length = 5 := by
  simp [octets]

@[simp] theorem WasmArgs.octets_length (args : WasmArgs) : args.octets.length = 44 := by
  simp [octets, args.funcName.size]

@[simp] theorem TaskResult.octets_length (r : TaskResult) : r.octets.length = 12 := by
  simp [octets]

@[simp] theorem NodeStatus.octets_length (s : NodeStatus) : s.octets.length = 4 := by
  simp [octets]

/-- A header stored at the front of a payload is read back. -/
theorem TaskHeader.view_front (p : Payload) (h : TaskHeader) (rest : List UInt8)
    (stored : p.cells = h.octets ++ rest) : TaskHeader.view p = h := by
  have job : (p.slice 1 4 (by decide)).cells = encodeLE 4 h.jobId.toNat :=
    p.slice_of_append 1 4 _ [h.opCode.code] _ rest (by simp [stored, octets]) rfl (by simp)
  have op : p.cells.headD 0 = h.opCode.code := by simp [stored, octets]
  simp only [view, op, word_encodeLE _ _ job, TaskOp.ofCode_code]

/-- Wasm arguments stored behind the header are read back. -/
theorem WasmArgs.view_behind (p : Payload) (front : List UInt8) (args : WasmArgs)
    (rest : List UInt8) (header : front.length = 5)
    (stored : p.cells = front ++ (args.octets ++ rest)) : WasmArgs.view p = args := by
  have name := args.funcName.size
  have binary : (p.slice 5 4 (by decide)).cells = encodeLE 4 args.binarySize.toNat :=
    p.slice_of_append 5 4 _ front _ (args.funcName.cells ++ (encodeLE 4 args.argc.toNat ++
      (encodeLE 4 args.argsSize.toNat ++ rest))) (by simp [stored, octets]) header (by simp)
  have func : (p.slice 9 32 (by decide)).cells = args.funcName.cells :=
    p.slice_of_append 9 32 _ (front ++ encodeLE 4 args.binarySize.toNat) _
      (encodeLE 4 args.argc.toNat ++ (encodeLE 4 args.argsSize.toNat ++ rest))
      (by simp [stored, octets]) (by simp [header]) name
  have count : (p.slice 41 4 (by decide)).cells = encodeLE 4 args.argc.toNat :=
    p.slice_of_append 41 4 _ (front ++ (encodeLE 4 args.binarySize.toNat ++ args.funcName.cells)) _
      (encodeLE 4 args.argsSize.toNat ++ rest)
      (by simp [stored, octets]) (by simp [header, name]) (by simp)
  have blob : (p.slice 45 4 (by decide)).cells = encodeLE 4 args.argsSize.toNat :=
    p.slice_of_append 45 4 _ (front ++ (encodeLE 4 args.binarySize.toNat ++
      (args.funcName.cells ++ encodeLE 4 args.argc.toNat))) _ rest
      (by simp [stored, octets]) (by simp [header, name]) (by simp)
  simp only [view, word_encodeLE _ _ binary, word_encodeLE _ _ count, word_encodeLE _ _ blob,
    Block.ext_cells func]

/-- A result stored at the front of a payload is read back. -/
theorem TaskResult.view_front (p : Payload) (r : TaskResult) (rest : List UInt8)
    (stored : p.cells = r.octets ++ rest) : TaskResult.view p = r := by
  have job : (p.slice 0 4 (by decide)).cells = encodeLE 4 r.jobId.toNat :=
    p.slice_of_append 0 4 _ [] _ (encodeLE 4 r.value.toUInt32.toNat ++
      (encodeLE 4 r.count.toNat ++ rest)) (by simp [stored, octets]) rfl (by simp)
  have value : (p.slice 4 4 (by decide)).cells = encodeLE 4 r.value.toUInt32.toNat :=
    p.slice_of_append 4 4 _ (encodeLE 4 r.jobId.toNat) _ (encodeLE 4 r.count.toNat ++ rest)
      (by simp [stored, octets]) (by simp) (by simp)
  have count : (p.slice 8 4 (by decide)).cells = encodeLE 4 r.count.toNat :=
    p.slice_of_append 8 4 _ (encodeLE 4 r.jobId.toNat ++ encodeLE 4 r.value.toUInt32.toNat) _ rest
      (by simp [stored, octets]) (by simp) (by simp)
  simp only [view, word_encodeLE _ _ job, word_encodeLE _ _ value, word_encodeLE _ _ count,
    Int32.toInt32_toUInt32]

/-- Different results have different octets. -/
theorem TaskResult.octets_injective : Function.Injective TaskResult.octets := by
  intro first second same
  let p : Payload := (Block.fill 4096 0).overlay first.octets (by simp)
  have stored : p.cells = second.octets ++ (List.replicate 4096 0).drop first.octets.length := by
    rw [← same]
    rfl
  exact (view_front p first _ rfl).symm.trans (view_front p second _ stored)

/-- A status stored at the front of a payload is read back. -/
theorem NodeStatus.view_front (p : Payload) (s : NodeStatus) (rest : List UInt8)
    (stored : p.cells = s.octets ++ rest) : NodeStatus.view p = s := by
  have ram : (p.slice 1 2 (by decide)).cells = encodeLE 2 s.ramFreeKb.toNat :=
    p.slice_of_append 1 2 _ [s.cpuLoad] _ (s.taskQueueLen :: rest)
      (by simp [stored, octets]) rfl (by simp)
  have queue : (p.slice 3 1 (by decide)).cells = [s.taskQueueLen] :=
    p.slice_of_append 3 1 _ (s.cpuLoad :: encodeLE 2 s.ramFreeKb.toNat) _ rest
      (by simp [stored, octets]) (by simp) rfl
  have bound := s.ramFreeKb.toNat_lt
  have cpu : p.cells.headD 0 = s.cpuLoad := by simp [stored, octets]
  simp only [view, cpu, ram, queue, decodeLE_encodeLE_of_lt 2 s.ramFreeKb.toNat
    (by omega), UInt16.ofNat_toNat, List.headD_cons]

/-- The receiver's view inverts the sender's octets. -/
@[simp] theorem Message.view_octets (m : Message) : Message.view m.octets = m := by
  have sender : (m.octets.slice 0 2 (by decide)).cells = encodeLE 2 m.senderId.toNat :=
    m.octets.slice_of_append 0 2 _ [] _ ([m.type.code] ++ m.payload.cells) rfl rfl (by simp)
  have type : (m.octets.slice 2 1 (by decide)).cells = [m.type.code] :=
    m.octets.slice_of_append 2 1 _ (encodeLE 2 m.senderId.toNat) _ m.payload.cells rfl
      (by simp) rfl
  have body : (m.octets.slice 3 4096 (by decide)).cells = m.payload.cells :=
    m.octets.slice_of_append 3 4096 _ (encodeLE 2 m.senderId.toNat ++ [m.type.code]) _ []
      (by simp [octets]) (by simp) m.payload.size
  have bound := m.senderId.toNat_lt
  simp only [view, sender, type, decodeLE_encodeLE_of_lt 2 m.senderId.toNat
    (by omega), UInt16.ofNat_toNat, List.headD_cons, MsgType.ofCode_code, Block.ext_cells body]

/-- Every 4099 octets are the octets of exactly one message. -/
@[simp] theorem Message.octets_view (b : Block UInt8 4099) : (Message.view b).octets = b := by
  obtain ⟨first, second, type, rest, cells⟩ : ∃ first second type rest,
      b.cells = first :: second :: type :: rest := by
    have size := b.size
    match b.cells, size with
    | first :: second :: type :: rest, _ => exact ⟨first, second, type, rest, rfl⟩
    | [_, _], size => simp at size
    | [_], size => simp at size
    | [], size => simp at size
  have length : rest.length = 4096 := by
    have size := b.size
    simp only [cells, List.length_cons] at size
    omega
  apply Block.ext_cells
  have sender : (UInt16.ofNat (decodeLE [first, second])).toNat = decodeLE [first, second] := by
    have low := first.toNat_lt
    have high := second.toNat_lt
    rw [UInt16.toNat_ofNat']
    simp only [decodeLE]
    omega
  have front := encodeLE_decodeLE [first, second]
  simp only [List.length_cons, List.length_nil] at front
  simp [octets, view, Block.slice_cells, cells, sender, front, List.take_of_length_le, length]

theorem Message.octets_injective {first second : Message}
    (same : first.octets = second.octets) : first = second := by
  rw [← Message.view_octets first, same, Message.view_octets]

end VelumOS.Source
