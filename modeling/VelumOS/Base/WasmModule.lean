import VelumOS.Base.Formats
import VelumOS.Base.WasmBinary

/-!
# Modules in WebAssembly's binary format

A binary is a header and sections, each with its length. Sections stand in one order and
at most once, custom sections anywhere. A count is a number in any of its LEB128 forms. A
module of functions has four sections: the types, the type of each function, the exported
names and the bodies.
-/
namespace VelumOS.Base.WasmModule
open Leb128 Formats Wasm

/-- A count, an index or a length. -/
def u32 : Format Nat := fun n octets =>
  NumberIn 5 octets ∧ (BitVec.ofNat 32 (unsigned octets)).toNat = n

theorem u32_small (n : UInt8) (small : n.toNat < 128) : u32 n.toNat [n] := by
  refine ⟨⟨decide_eq_false (Nat.not_le.mpr small), Nat.le_of_ble_eq_true rfl⟩, ?_⟩
  have value : unsigned [n] = n.toNat := Nat.mod_eq_of_lt small
  rw [value, BitVec.toNat_ofNat]
  omega

/-! ## Sections -/

structure Section where
  id : Nat
  payload : List UInt8
  deriving DecidableEq

/-- The numbers of the sections that are not custom, in their order. -/
def sectionNumbers : List Nat := [1, 2, 3, 4, 5, 6, 7, 8, 9, 12, 10, 11]

/-- Each section at most once and in order, custom sections anywhere. -/
def InOrder (sections : List Section) : Prop :=
  ((sections.map Section.id).filter (· ≠ 0)).Sublist sectionNumbers

def sectionOctets : Format Section := fun s octets =>
  ∃ (id : UInt8) (size : List UInt8), id.toNat < 128 ∧ id.toNat = s.id ∧
    u32 s.payload.length size ∧ octets = id :: (size ++ s.payload)

/-- The magic number and the version. -/
def header : List UInt8 := [0x00, 0x61, 0x73, 0x6d, 0x01, 0x00, 0x00, 0x00]

def moduleOctets : Format (List Section) := fun sections binary =>
  ∃ octets, Each sectionOctets sections octets ∧ binary = header ++ octets

/-- A name: its length and its octets. -/
def name : Format (List UInt8) := fun utf8 octets =>
  ∃ size, u32 utf8.length size ∧ octets = size ++ utf8

/-! ## Modules of functions -/

/-- A count and as many values. -/
def vec {α : Type} (format : Format α) : Format (List α) := fun values octets =>
  ∃ number each, u32 values.length number ∧ Each format values each ∧ octets = number ++ each

def valType : Format ValType := fun type octets => octets = [type.code]

/-- The type of a function of integers. -/
structure Signature where
  args : List ValType
  rets : List ValType
  deriving DecidableEq

def signature : Format Signature := fun type octets =>
  ∃ args rets, vec valType type.args args ∧ vec valType type.rets rets ∧
    octets = 0x60 :: (args ++ rets)

/-- An exported function: its name and its index. -/
structure FuncExport where
  name : List UInt8
  index : Nat
  deriving DecidableEq

def funcExport : Format FuncExport := fun e octets =>
  ∃ utf8 index, name e.name utf8 ∧ u32 e.index index ∧ octets = utf8 ++ (0x00 :: index)

/-- The octets of a body, behind their number. -/
def code : Format (List UInt8) := fun body octets =>
  ∃ size, u32 body.length size ∧ octets = size ++ body

/-- A body as instructions: its blocks of locals, its code and `end`. -/
def bodyOctets : Format Body := fun body octets =>
  ∃ number blocks instrs, u32 body.blocks.length number ∧ EncodesBlocks body.blocks blocks ∧
    EncodesAll body.instrs instrs ∧ octets = number ++ (blocks ++ (instrs ++ [0x0b]))

/-- A function: the index of its type, and its body. -/
structure Func where
  type : Nat
  body : List UInt8
  deriving DecidableEq

/-- A module of functions. -/
structure FuncModule where
  types : List Signature
  funcs : List Func
  exports : List FuncExport
  deriving DecidableEq

/-- The sections of functions: types, the type of each function, exported names, bodies. -/
def funcModule : Format FuncModule := fun fm binary =>
  ∃ types funcs exports bodies,
    vec signature fm.types types ∧ vec u32 (fm.funcs.map Func.type) funcs ∧
    vec funcExport fm.exports exports ∧ vec code (fm.funcs.map Func.body) bodies ∧
    moduleOctets [⟨1, types⟩, ⟨3, funcs⟩, ⟨7, exports⟩, ⟨10, bodies⟩] binary

end VelumOS.Base.WasmModule
