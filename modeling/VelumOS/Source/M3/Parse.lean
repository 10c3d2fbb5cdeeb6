import VelumOS.Source.M3.Module

/-!
# The module parser

`src/m3_parse.c`. A section's parser takes the module as far as it is parsed and the octets
of the section; octets that it leaves are skipped. `Parse_InitExpr`, which compiles an
expression to find its end, is the parameter `InitExpr`.
-/
namespace VelumOS.Source.M3

/-- `Parse_InitExpr`: the octets behind the expression. -/
abbrev InitExpr := M3Module → List UInt8 → Except M3Err (List UInt8)

/-- A part of a section: the module with what it adds and the octets behind it. -/
abbrev EntryParser := M3Module → List UInt8 → Except M3Err (M3Module × List UInt8)

/-- `d_m3MaxSaneTypesCount`, `d_m3MaxSaneFunctionsCount` and `d_m3MaxSaneGlobalsCount`. -/
def maxSaneCount : Nat := 1000000

/-- `d_m3MaxSaneImportsCount`, `d_m3MaxSaneExportsCount` and `d_m3MaxSaneDataSegments`. -/
def maxSaneEntries : Nat := 100000

/-- `d_m3MaxSaneElementSegments` and `d_m3MaxSaneTableSize`. -/
def maxSaneTableSize : Nat := 10000000

/-- `d_m3MaxSaneFunctionArgRetCount`. -/
def maxSaneFunctionArgRetCount : Nat := 1000

/-- The loop over the entries of a section. -/
def parseEntries (entry : EntryParser) : Nat → EntryParser
  | 0, m, bytes => .ok (m, bytes)
  | count + 1, m, bytes => do
    let (m, bytes) ← entry m bytes
    parseEntries entry count m bytes

/-- A count that is not too large, and the entries. -/
def parseCounted (limit : Nat) (fault : M3Err) (entry : EntryParser) (m : M3Module)
    (bytes : List UInt8) : Except M3Err M3Module := do
  let (count, bytes) ← readLEB_u32 bytes
  if limit < count.toNat then .error fault
  else
    let (m, _) ← parseEntries entry count.toNat m bytes
    .ok m

/-! ## Types -/

/-- The loop that reads the types of arguments or results. -/
def readTypes : Nat → Reader (List UInt8)
  | 0, bytes => .ok ([], bytes)
  | count + 1, bytes => do
    let (wasmType, bytes) ← readLEB_i7 bytes
    let type ← normalizeType wasmType
    let (types, bytes) ← readTypes count bytes
    .ok (type :: types, bytes)

/-- One entry of `ParseSection_Type`. -/
def parseFuncType : EntryParser := fun m bytes => do
  let (form, bytes) ← readLEB_i7 bytes
  if form ≠ -32 then .error .wasmMalformed
  else
    let (numArgs, bytes) ← readLEB_u32 bytes
    if maxSaneFunctionArgRetCount < numArgs.toNat then .error .tooManyArgsRets
    else
      let (args, bytes) ← readTypes numArgs.toNat bytes
      let (numRets, bytes) ← readLEB_u32 bytes
      if maxSaneFunctionArgRetCount < numRets.toNat + numArgs.toNat then .error .tooManyArgsRets
      else
        let (rets, bytes) ← readTypes numRets.toNat bytes
        let ftype : M3FuncType := ⟨rets, args⟩
        .ok ({ m with
          environment := addFuncType m.environment ftype
          funcTypes := m.funcTypes ++ [ftype] }, bytes)

def parseSectionType (m : M3Module) (bytes : List UInt8) : Except M3Err M3Module :=
  parseCounted maxSaneCount .tooManyTypes parseFuncType { m with funcTypes := [] } bytes

/-! ## Functions and imports -/

/-- One entry of `ParseSection_Function`. -/
def parseFunction : EntryParser := fun m bytes => do
  let (funcTypeIndex, bytes) ← readLEB_u32 bytes
  let m ← m.addFunction funcTypeIndex.toNat none
  .ok (m, bytes)

def parseSectionFunction : M3Module → List UInt8 → Except M3Err M3Module :=
  parseCounted maxSaneCount .tooManyFunctions parseFunction

/-- `ParseType_Memory`: the fields as they are left, and how it ends. The shift of the page
size is taken modulo 32. -/
def parseTypeMemory (memory : M3MemoryInfo) (bytes : List UInt8) :
    M3MemoryInfo × Except M3Err (List UInt8) :=
  match readLEB_u7 bytes with
  | .error fault => (memory, .error fault)
  | .ok (flag, bytes) =>
    let memory := { memory with initPages := writtenLEB_u32 bytes }
    match readLEB_u32 bytes with
    | .error fault => (memory, .error fault)
    | .ok (_, bytes) =>
      let (memory, maxPages) : M3MemoryInfo × Except M3Err (List UInt8) :=
        if flag &&& 1 = 0 then ({ memory with maxPages := 0 }, .ok bytes)
        else ({ memory with maxPages := writtenLEB_u32 bytes }, (readLEB_u32 bytes).map Prod.snd)
      match maxPages with
      | .error fault => (memory, .error fault)
      | .ok bytes =>
        let memory := { memory with pageSize := 0 }
        if flag &&& 8 = 0 then (memory, .ok bytes)
        else
          match readLEB_u32 bytes with
          | .error fault => (memory, .error fault)
          | .ok (logPageSize, bytes) =>
            ({ memory with pageSize := 1 <<< (logPageSize.toNat % 32) }, .ok bytes)

/-- One entry of `ParseSection_Import`; of a table nothing but its name is read. -/
def parseImport : EntryParser := fun m bytes => do
  let (moduleUtf8, bytes) ← readUtf8 bytes
  let (fieldUtf8, bytes) ← readUtf8 bytes
  let (importKind, bytes) ← readU8 bytes
  let importInfo : M3ImportInfo := ⟨moduleUtf8, fieldUtf8⟩
  match importKind.toNat with
  | 0 =>
    let (typeIndex, bytes) ← readLEB_u32 bytes
    let m ← m.addFunction typeIndex.toNat (some importInfo)
    .ok ({ m with numFuncImports := m.numFuncImports + 1 }, bytes)
  | 1 => .ok (m, bytes)
  | 2 =>
    let (memoryInfo, parsed) := parseTypeMemory m.memoryInfo bytes
    let bytes ← parsed
    .ok ({ m with memoryInfo := memoryInfo, memoryImport := some importInfo }, bytes)
  | 3 =>
    let (waType, bytes) ← readLEB_i7 bytes
    let type ← normalizeType waType
    let (isMutable, bytes) ← readLEB_u7 bytes
    .ok (m.addGlobal ⟨type, true, isMutable ≠ 0, some importInfo, none, none⟩, bytes)
  | _ => .error .wasmMalformed

def parseSectionImport : M3Module → List UInt8 → Except M3Err M3Module :=
  parseCounted maxSaneEntries .tooManyImports parseImport

/-! ## Exports and the start function -/

/-- The export of a function: a fourth name is dropped. -/
def ParsedFunction.addExport (func : ParsedFunction) (utf8 : List UInt8) : ParsedFunction :=
  if func.names.length < maxDuplicateFunctionImpl then
    { func with names := func.names ++ [utf8], exportName := some utf8 }
  else func

/-- What `ParseSection_Export` does with a name, by the kind of what it names. -/
def M3Module.addExport (m : M3Module) (exportKind : UInt8) (index : Nat) (utf8 : List UInt8) :
    Except M3Err M3Module :=
  match exportKind.toNat with
  | 0 =>
    if m.functions.length ≤ index then .error .wasmMalformed
    else .ok { m with functions := m.functions.modify index (·.addExport utf8) }
  | 1 => .ok { m with table0ExportName := some utf8 }
  | 2 => .ok { m with memoryExportName := some utf8 }
  | 3 =>
    if m.globals.length ≤ index then .error .wasmMalformed
    else .ok { m with
      globals := m.globals.modify index fun global => { global with name := some utf8 } }
  | _ => .ok m

/-- One entry of `ParseSection_Export`. -/
def parseExport : EntryParser := fun m bytes => do
  let (utf8, bytes) ← readUtf8 bytes
  let (exportKind, bytes) ← readU8 bytes
  let (index, bytes) ← readLEB_u32 bytes
  let m ← m.addExport exportKind index.toNat utf8
  .ok (m, bytes)

def parseSectionExport : M3Module → List UInt8 → Except M3Err M3Module :=
  parseCounted maxSaneEntries .tooManyExports parseExport

def parseSectionStart (m : M3Module) (bytes : List UInt8) : Except M3Err M3Module := do
  let (startFuncIndex, _) ← readLEB_u32 bytes
  if startFuncIndex.toNat < m.functions.length then
    .ok { m with startFunction := some startFuncIndex.toNat }
  else .error .startFunctionOutOfBounds

/-! ## Elements, code and data -/

def parseSectionElement (m : M3Module) (bytes : List UInt8) : Except M3Err M3Module := do
  let (numSegments, bytes) ← readLEB_u32 bytes
  if maxSaneTableSize < numSegments.toNat then .error .tooManyElementSegments
  else .ok { m with elementSection := bytes, numElementSegments := numSegments.toNat }

/-- What lies between two pointers, the second one behind the first. -/
def between (start rest : List UInt8) : List UInt8 := start.take (start.length - rest.length)

/-- The loop of `ParseSection_Code` from the function with index `f` on: a body keeps the
number of its size in front of it. -/
def parseCodes : Nat → Nat → EntryParser
  | 0, _, m, bytes => .ok (m, bytes)
  | count + 1, f, m, start => do
    let (size, bytes) ← readLEB_u32 start
    if size = 0 then parseCodes count (f + 1) m bytes
    else if bytes.length < size.toNat then .error .wasmSectionOverrun
    else
      let rest := bytes.drop size.toNat
      let m := { m with
        functions := m.functions.modify (f + m.numFuncImports) fun func =>
          { func with wasm := some (between start rest) } }
      parseCodes count (f + 1) m rest

def parseSectionCode (m : M3Module) (bytes : List UInt8) : Except M3Err M3Module := do
  let (numFunctions, bytes) ← readLEB_u32 bytes
  if numFunctions.toNat ≠ m.functions.length - m.numFuncImports then
    .error .mismatchedFunctionCount
  else
    let (m, rest) ← parseCodes numFunctions.toNat 0 m bytes
    if rest ≠ [] then .error .wasmSectionUnderrun else .ok m

/-- One entry of `ParseSection_Data`. -/
def parseDataSegment (initExpr : InitExpr) : EntryParser := fun m bytes => do
  let (memoryRegion, start) ← readLEB_u32 bytes
  let bytes ← initExpr m start
  if (between start bytes).length ≤ 1 then .error .wasmMissingInitExpr
  else
    let (size, data) ← readLEB_u32 bytes
    if data.length < size.toNat then .error .dataSegmentUnderflow
    else
      let segment := ⟨memoryRegion, between start bytes, data.take size.toNat⟩
      .ok ({ m with dataSegments := m.dataSegments ++ [segment] }, data.drop size.toNat)

def parseSectionData (initExpr : InitExpr) (m : M3Module) (bytes : List UInt8) :
    Except M3Err M3Module :=
  parseCounted maxSaneEntries .tooManyDataSegments (parseDataSegment initExpr)
    { m with dataSegments := [] } bytes

/-! ## Memory and globals -/

/-- `ParseSection_Memory`: what `ParseType_Memory` returns is not looked at. -/
def parseSectionMemory (m : M3Module) (bytes : List UInt8) : Except M3Err M3Module := do
  let (numMemories, bytes) ← readLEB_u32 bytes
  if numMemories ≠ 1 then .error .tooManyMemorySections
  else .ok { m with memoryInfo := (parseTypeMemory m.memoryInfo bytes).1 }

/-- One entry of `ParseSection_Global`. -/
def parseGlobal (initExpr : InitExpr) : EntryParser := fun m bytes => do
  let (waType, bytes) ← readLEB_i7 bytes
  let type ← normalizeType waType
  let (isMutable, start) ← readLEB_u7 bytes
  let bytes ← initExpr (m.addGlobal ⟨type, false, isMutable ≠ 0, none, none, some start⟩) start
  if (between start bytes).length ≤ 1 then .error .wasmMissingInitExpr
  else
    .ok (m.addGlobal ⟨type, false, isMutable ≠ 0, none, none, some (between start bytes)⟩, bytes)

def parseSectionGlobal (initExpr : InitExpr) : M3Module → List UInt8 → Except M3Err M3Module :=
  parseCounted maxSaneCount .tooManyGlobals (parseGlobal initExpr)

/-! ## Custom sections -/

/-- One function's name, for a function that has none. -/
def parseName : EntryParser := fun m bytes => do
  let (index, bytes) ← readLEB_u32 bytes
  let (name, bytes) ← readUtf8 bytes
  .ok ({ m with
    functions := m.functions.modify index.toNat fun func =>
      if func.names = [] then { func with names := [name] } else func }, bytes)

/-- One part of `ParseSection_Name`; only the names of functions are read. -/
def parseNames (nameType : BitVec 8) (m : M3Module) (bytes : List UInt8) :
    Except M3Err M3Module :=
  if nameType = 1 then parseCounted maxSaneCount .tooManyNames parseName m bytes else .ok m

/-- `ParseSection_Name`. Where a part ends is what its length says, whatever was read. -/
def parseSectionName : Nat → M3Module → List UInt8 → Except M3Err M3Module
  | 0, m, _ => .ok m
  | fuel + 1, m, bytes =>
    if bytes = [] then .ok m
    else do
      let (nameType, bytes) ← readLEB_u7 bytes
      let (payloadLength, start) ← readLEB_u32 bytes
      let m ← parseNames nameType m start
      parseSectionName fuel m (start.drop payloadLength.toNat)

/-- `ParseSection_Custom`; the sandbox installs no handler. -/
def parseSectionCustom (m : M3Module) (bytes : List UInt8) : Except M3Err M3Module := do
  let (name, bytes) ← readUtf8 bytes
  if cstr name = [0x6e, 0x61, 0x6d, 0x65] then parseSectionName bytes.length m bytes
  else .ok m

/-! ## Sections -/

/-- `ParseModuleSection`; tables and the data count are skipped. -/
def parseModuleSection (initExpr : InitExpr) (sectionType : Nat) (m : M3Module)
    (bytes : List UInt8) : Except M3Err M3Module :=
  match sectionType with
  | 0 => parseSectionCustom m bytes
  | 1 => parseSectionType m bytes
  | 2 => parseSectionImport m bytes
  | 3 => parseSectionFunction m bytes
  | 5 => parseSectionMemory m bytes
  | 6 => parseSectionGlobal initExpr m bytes
  | 7 => parseSectionExport m bytes
  | 8 => parseSectionStart m bytes
  | 9 => parseSectionElement m bytes
  | 10 => parseSectionCode m bytes
  | 11 => parseSectionData initExpr m bytes
  | _ => .ok m

def sectionsOrder : List Nat := [1, 2, 3, 4, 5, 6, 7, 8, 9, 12, 10, 11, 0]

/-- The inner loop of `m3_ParseModule`, over what is left of `sectionsOrder`. -/
def expectSection (sectionType : Nat) : List Nat → Nat → Except M3Err Nat
  | [], _ => .error .misorderedWasmSection
  | next :: order, expectedSection =>
    if next = sectionType then .ok (expectedSection + 1)
    else if 12 ≤ expectedSection + 1 then .error .misorderedWasmSection
    else expectSection sectionType order (expectedSection + 1)

/-- Where a section stands in the order; custom sections stand anywhere. -/
def placeSection (sectionType : BitVec 8) (expectedSection : Nat) : Except M3Err Nat :=
  if sectionType = 0 then .ok expectedSection
  else expectSection sectionType.toNat (sectionsOrder.drop expectedSection) expectedSection

/-- One round of the outer loop of `m3_ParseModule`. -/
def parseSection (initExpr : InitExpr) (m : M3Module) (expectedSection : Nat)
    (pos : List UInt8) : Except M3Err (M3Module × Nat × List UInt8) := do
  let (sectionType, pos) ← readLEB_u7 pos
  let expectedSection ← placeSection sectionType expectedSection
  let (sectionLength, pos) ← readLEB_u32 pos
  if pos.length < sectionLength.toNat then .error .wasmMalformed
  else
    let m ← parseModuleSection initExpr sectionType.toNat m (pos.take sectionLength.toNat)
    .ok (m, expectedSection, pos.drop sectionLength.toNat)

/-- The outer loop; a round takes two octets at least. -/
def parseSections (initExpr : InitExpr) : Nat → M3Module → Nat → List UInt8 →
    Except M3Err M3Module
  | 0, m, _, _ => .ok m
  | fuel + 1, m, expectedSection, pos =>
    if pos = [] then .ok m
    else do
      let (m, expectedSection, pos) ← parseSection initExpr m expectedSection pos
      parseSections initExpr fuel m expectedSection pos

/-- `m3_ParseModule`. -/
def m3ParseModule (initExpr : InitExpr) (environment : List M3FuncType) (bytes : List UInt8) :
    Except M3Err M3Module := do
  let (magic, pos) ← readU32 bytes
  let (version, pos) ← readU32 pos
  if magic ≠ 0x6d736100 then .error .wasmMalformed
  else if version ≠ 1 then .error .incompatibleWasmVersion
  else parseSections initExpr pos.length { environment := environment } 0 pos

end VelumOS.Source.M3
