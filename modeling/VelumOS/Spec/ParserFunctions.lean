import VelumOS.Spec.ParserState
import VelumOS.Spec.CompilerFunctions

/-!
# Modules of functions

Each section of a module of functions is read back, whatever forms its numbers have, and
each function stands at its index with its type, the names that it keeps and its body.
-/
namespace VelumOS.Spec.Parser
open Base.Leb128 Base.Formats Base.Wasm Base.WasmModule Source.M3 Spec.Readers
open Spec.Compiler (typeCode)

/-! ## Entries in a row -/

section Loops
variable {α : Type} {entry : EntryParser} {format : Format α} {values : List α}
  {octets : List UInt8}

/-- A loop over entries that are all read; `result` is what the entries so far make of the
module. -/
theorem parseEntries_complete (result : List α → M3Module)
    (reads : ∀ before, ∀ value ∈ values, ∀ octets rest, format value octets →
      entry (result before) (octets ++ rest) = .ok (result (before ++ [value]), rest))
    (each : Each format values octets) (before : List α) (rest : List UInt8) :
    parseEntries entry values.length (result before) (octets ++ rest) =
      .ok (result (before ++ values), rest) := by
  induction each generalizing before with
  | nil =>
    rw [List.append_nil]
    rfl
  | @cons value values octets octets' first others ih =>
    have read := reads before value List.mem_cons_self octets (octets' ++ rest) first
    have parsed := ih (fun before value inside =>
      reads before value (List.mem_cons_of_mem _ inside)) (before ++ [value])
    rw [List.append_assoc, List.singleton_append] at parsed
    rw [List.append_assoc]
    exact ok_bind.mpr ⟨_, read, parsed⟩

theorem parseCounted_complete {limit : Nat} {fault : M3Err} (result : List α → M3Module)
    (reads : ∀ before, ∀ value ∈ values, ∀ octets rest, format value octets →
      entry (result before) (octets ++ rest) = .ok (result (before ++ [value]), rest))
    (whole : vec format values octets) (sane : values.length ≤ limit) :
    parseCounted limit fault entry (result []) octets = .ok (result values) := by
  obtain ⟨number, entries, counted, each, rfl⟩ := whole
  obtain ⟨count, first, same⟩ := read_u32 counted entries
  have parsed := parseEntries_complete result reads each [] []
  rw [List.append_nil, ← same] at parsed
  refine ok_bind.mpr ⟨_, first, ?_⟩
  dsimp only
  rw [if_neg (by omega)]
  exact ok_bind.mpr ⟨_, parsed, rfl⟩

end Loops

/-! ## Types -/

def funcTypeOf (type : Signature) : M3FuncType :=
  ⟨type.rets.map typeCode, type.args.map typeCode⟩

theorem typeOctet_of {type : ValType} {octets : List UInt8} (encodes : valType type octets) :
    typeOctet (typeCode type) octets := by
  subst encodes
  refine ⟨type.code, rfl, ?_, ?_⟩ <;> cases type <;> decide

theorem each_typeOctet {types : List ValType} {octets : List UInt8}
    (each : Each valType types octets) : Each typeOctet (types.map typeCode) octets := by
  induction each with
  | nil => exact .nil
  | cons first others ih => exact .cons (typeOctet_of first) ih

/-- The types of arguments or results, behind their number. -/
theorem readTypes_complete {types : List ValType} {octets : List UInt8}
    (whole : vec valType types octets) (rest : List UInt8) :
    ∃ count bytes, readLEB_u32 (octets ++ rest) = .ok (count, bytes) ∧
      count.toNat = types.length ∧
      readTypes count.toNat bytes = .ok (types.map typeCode, rest) := by
  obtain ⟨number, each, counted, encodes, rfl⟩ := whole
  obtain ⟨count, first, same⟩ := read_u32 counted (each ++ rest)
  rw [List.append_assoc]
  refine ⟨count, each ++ rest, first, same, ?_⟩
  exact (readTypes_reads _).complete ⟨by rw [List.length_map, same], each_typeOctet encodes⟩ rest

theorem parseFuncType_complete {type : Signature} {octets : List UInt8}
    (few : type.rets.length + type.args.length ≤ maxSaneFunctionArgRetCount)
    (encodes : signature type octets) (m : M3Module) (rest : List UInt8) :
    parseFuncType m (octets ++ rest) = .ok ({ m with
      environment := addFuncType m.environment (funcTypeOf type)
      funcTypes := m.funcTypes ++ [funcTypeOf type] }, rest) := by
  obtain ⟨args, rets, encodesArgs, encodesRets, rfl⟩ := encodes
  have form := readLEB_i7_reads.complete ⟨0x60, rfl, by decide, rfl⟩ (args ++ rets ++ rest)
  obtain ⟨numArgs, bytes, readNumArgs, sameArgs, readArgs⟩ :=
    readTypes_complete encodesArgs (rets ++ rest)
  obtain ⟨numRets, bytes', readNumRets, sameRets, readRets⟩ :=
    readTypes_complete encodesRets rest
  rw [List.append_assoc] at form
  have isFunction : BitVec.ofInt 8 (signed [0x60]) = -32 := by decide
  rw [List.cons_append, List.append_assoc]
  refine ok_bind.mpr ⟨_, form, ?_⟩
  dsimp only
  rw [if_neg (not_not.mpr isFunction)]
  refine ok_bind.mpr ⟨_, readNumArgs, ?_⟩
  dsimp only
  rw [if_neg (by omega)]
  refine ok_bind.mpr ⟨_, readArgs, ok_bind.mpr ⟨_, readNumRets, ?_⟩⟩
  dsimp only
  rw [if_neg (by omega)]
  exact ok_bind.mpr ⟨_, readRets, rfl⟩

/-- A module with these types and nothing else. -/
def withTypes (environment : List M3FuncType) (types : List Signature) : M3Module where
  environment := (types.map funcTypeOf).foldl addFuncType environment
  funcTypes := types.map funcTypeOf

theorem parseSectionType_complete {types : List Signature} {octets : List UInt8}
    (sane : types.length ≤ maxSaneCount)
    (few : ∀ type ∈ types, type.rets.length + type.args.length ≤ maxSaneFunctionArgRetCount)
    (whole : vec signature types octets) (environment : List M3FuncType) :
    parseSectionType { environment := environment } octets =
      .ok (withTypes environment types) := by
  refine parseCounted_complete (withTypes environment) (fun before type inside octets rest
    encodes => ?_) whole sane
  rw [parseFuncType_complete (few type inside) encodes]
  simp only [withTypes, List.map_append, List.foldl_append]
  rfl

/-! ## Functions and their names -/

/-- A function of which the type is known. -/
def declared (types : List M3FuncType) (type : Nat) : ParsedFunction where
  funcType := types.getD type ⟨[], []⟩

theorem parseFunction_complete {m : M3Module} {type : Nat} {octets : List UInt8}
    (inside : type < m.funcTypes.length) (encodes : u32 type octets) (rest : List UInt8) :
    parseFunction m (octets ++ rest) =
      .ok ({ m with functions := m.functions ++ [declared m.funcTypes type] }, rest) := by
  obtain ⟨index, first, same⟩ := read_u32 encodes rest
  have found : m.funcTypes[index.toNat]? = some m.funcTypes[type] := by
    rw [same, List.getElem?_eq_getElem inside]
  have added : m.addFunction index.toNat none =
      .ok { m with functions := m.functions ++ [declared m.funcTypes type] } := by
    rw [M3Module.addFunction, found, declared, List.getD_eq_getElem _ _ inside]
    rfl
  exact ok_bind.mpr ⟨_, first, ok_bind.mpr ⟨_, added, rfl⟩⟩

theorem parseSectionFunction_complete {m : M3Module} {types : List Nat} {octets : List UInt8}
    (sane : types.length ≤ maxSaneCount) (typed : ∀ type ∈ types, type < m.funcTypes.length)
    (whole : vec u32 types octets) (none : m.functions = []) :
    parseSectionFunction m octets =
      .ok { m with functions := types.map (declared m.funcTypes) } := by
  have parsed : parseSectionFunction { m with functions := [].map (declared m.funcTypes) } octets =
      .ok { m with functions := types.map (declared m.funcTypes) } := parseCounted_complete
    (fun before => { m with functions := before.map (declared m.funcTypes) })
    (fun before type inside octets rest encodes => by
      have read := parseFunction_complete
        (m := { m with functions := before.map (declared m.funcTypes) }) (typed type inside)
        encodes rest
      rwa [← List.map_singleton, ← List.map_append] at read) whole sane
  have same : { m with functions := [].map (declared m.funcTypes) } = m := by
    rw [List.map_nil, ← none]
  rwa [same] at parsed

/-- The names that function `i` is exported under. -/
def namesOf (exports : List FuncExport) (i : Nat) : List (List UInt8) :=
  (exports.filter (·.index = i)).map FuncExport.name

/-- The function keeps three of its names, and the last one of these as the exported one. -/
def exportedAs (names : List (List UInt8)) (func : ParsedFunction) : ParsedFunction :=
  { func with
    names := names.take maxDuplicateFunctionImpl
    exportName := (names.take maxDuplicateFunctionImpl).getLast? }

theorem addExport_exportedAs (names : List (List UInt8)) (utf8 : List UInt8)
    (func : ParsedFunction) :
    (exportedAs names func).addExport utf8 = exportedAs (names ++ [utf8]) func := by
  unfold ParsedFunction.addExport exportedAs
  dsimp only
  rw [List.length_take]
  split
  · next room =>
    have few : names.length < maxDuplicateFunctionImpl := by omega
    rw [List.take_of_length_le (Nat.le_of_lt few), List.take_of_length_le (by
      rw [List.length_append, List.length_singleton]
      exact few), List.getLast?_concat]
  · next full =>
    rw [List.take_append_of_le_length (by omega)]

theorem namesOf_append (exports : List FuncExport) (e : FuncExport) (i : Nat) :
    namesOf (exports ++ [e]) i =
      if e.index = i then namesOf exports i ++ [e.name] else namesOf exports i := by
  unfold namesOf
  rw [List.filter_append, List.map_append]
  split
  · next here => rw [List.filter_cons_of_pos (by simpa using here)]; rfl
  · next other => rw [List.filter_cons_of_neg (by simpa using other)]; simp

/-- The functions with the names they are exported under. -/
def withNames (exports : List FuncExport) (functions : List ParsedFunction) :
    List ParsedFunction :=
  functions.mapIdx fun i func => exportedAs (namesOf exports i) func

theorem withNames_append (exports : List FuncExport) (e : FuncExport)
    (functions : List ParsedFunction) :
    (withNames exports functions).modify e.index (·.addExport e.name) =
      withNames (exports ++ [e]) functions := by
  refine List.ext_getElem? fun i => ?_
  rw [List.getElem?_modify, withNames, withNames, List.getElem?_mapIdx, List.getElem?_mapIdx,
    namesOf_append]
  cases functions[i]? with
  | none => rfl
  | some func =>
    split
    · exact congrArg some (addExport_exportedAs _ _ func)
    · rfl

theorem parseExport_complete {m : M3Module} {e : FuncExport} {octets : List UInt8}
    (sane : e.name.length ≤ 10000) (inside : e.index < m.functions.length)
    (encodes : funcExport e octets) (rest : List UInt8) :
    parseExport m (octets ++ rest) = .ok ({ m with
      functions := m.functions.modify e.index (·.addExport e.name) }, rest) := by
  obtain ⟨utf8, index, named, numbered, rfl⟩ := encodes
  have first := readUtf8_reads.complete ⟨named, sane⟩ (0x00 :: (index ++ rest))
  have second := readU8_reads.complete (rfl : [0x00] = [(0x00 : UInt8)]) (index ++ rest)
  obtain ⟨value, third, same⟩ := read_u32 numbered rest
  have added : m.addExport 0x00 value.toNat e.name = .ok { m with
      functions := m.functions.modify e.index (·.addExport e.name) } := by
    rw [same]
    exact if_neg (Nat.not_le.mpr inside)
  rw [List.append_assoc, List.cons_append]
  exact ok_bind.mpr ⟨_, first, ok_bind.mpr ⟨_, second, ok_bind.mpr ⟨_, third,
    ok_bind.mpr ⟨_, added, rfl⟩⟩⟩⟩

theorem parseSectionExport_complete {m : M3Module} {exports : List FuncExport}
    {octets : List UInt8} (sane : exports.length ≤ maxSaneEntries)
    (names : ∀ e ∈ exports, e.name.length ≤ 10000)
    (inside : ∀ e ∈ exports, e.index < m.functions.length)
    (whole : vec funcExport exports octets) (unnamed : withNames [] m.functions = m.functions) :
    parseSectionExport m octets = .ok { m with functions := withNames exports m.functions } := by
  have length : ∀ before, (withNames before m.functions).length = m.functions.length :=
    fun before => List.length_mapIdx
  have parsed : parseSectionExport { m with functions := withNames [] m.functions } octets =
      .ok { m with functions := withNames exports m.functions } := parseCounted_complete
    (fun before => { m with functions := withNames before m.functions })
    (fun before e present octets rest encodes => by
      have read := parseExport_complete (m := { m with functions := withNames before m.functions })
        (names e present) (by rw [length]; exact inside e present) encodes rest
      rwa [withNames_append] at read) whole sane
  rwa [unnamed] at parsed

/-! ## Bodies -/

/-- Each body is given to the function at its place, with its number in front. -/
theorem parseCodes_complete {bodies : List (List UInt8)} {octets : List UInt8}
    (each : Each code bodies octets) (some : ∀ body ∈ bodies, body ≠ []) (f : Nat)
    {m : M3Module} (none : m.numFuncImports = 0) (rest : List UInt8) :
    ∃ functions, parseCodes bodies.length f m (octets ++ rest) =
        .ok ({ m with functions := functions }, rest) ∧
      (∀ i < f, functions[i]? = m.functions[i]?) ∧
      functions.length = m.functions.length ∧
      ∀ i body, bodies[i]? = Option.some body → ∃ wasm, code body wasm ∧
        functions[f + i]? = m.functions[f + i]?.map fun func =>
          { func with wasm := Option.some wasm } := by
  induction each generalizing f m with
  | nil =>
    refine ⟨m.functions, rfl, fun _ _ => rfl, rfl, fun i body found => ?_⟩
    cases found
  | @cons body bodies octets octets' first others ih =>
    obtain ⟨size, sized, rfl⟩ := first
    obtain ⟨value, read, same⟩ := read_u32 sized (body ++ (octets' ++ rest))
    have positive := List.length_pos_of_ne_nil (some body List.mem_cons_self)
    have present : value ≠ 0 := by
      rintro rfl
      rw [← same] at positive
      exact Nat.lt_irrefl _ positive
    obtain ⟨functions, parsed, before, length, behind⟩ :=
      ih (fun other inside => some other (List.mem_cons_of_mem _ inside)) (f + 1)
        (m := { m with functions := m.functions.modify f fun func =>
          { func with wasm := Option.some (size ++ body) } }) none
    dsimp only at before length behind
    refine ⟨functions, ?_, fun i below => ?_, ?_, fun i other found => ?_⟩
    · rw [List.append_assoc, List.append_assoc, List.length_cons, parseCodes]
      refine ok_bind.mpr ⟨_, read, ?_⟩
      dsimp only
      have fits : ¬ (body ++ (octets' ++ rest)).length < value.toNat := by
        rw [same, List.length_append]
        omega
      have taken : between (size ++ (body ++ (octets' ++ rest))) (octets' ++ rest) =
          size ++ body := by
        rw [← List.append_assoc, between_append]
      have place : f + m.numFuncImports = f := by rw [none, Nat.add_zero]
      rw [if_neg present, if_neg fits, same, List.drop_left, taken, place]
      exact parsed
    · rw [before i (Nat.lt_succ_of_lt below), List.getElem?_modify_ne _ _ (Nat.ne_of_gt below)]
    · rw [length, List.length_modify]
    · cases i with
      | zero =>
        obtain rfl := Option.some.inj found
        refine ⟨size ++ body, ⟨size, sized, rfl⟩, ?_⟩
        rw [Nat.add_zero, before f (Nat.lt_succ_self f), List.getElem?_modify_eq]
        rfl
      | succ i =>
        obtain ⟨wasm, encodes, at_i⟩ := behind i other found
        refine ⟨wasm, encodes, ?_⟩
        rw [Nat.add_right_comm, Nat.add_assoc] at at_i
        rw [at_i, List.getElem?_modify_ne _ _ (by omega)]

theorem parseSectionCode_complete {m : M3Module} {bodies : List (List UInt8)}
    {octets : List UInt8} (whole : vec code bodies octets) (some : ∀ body ∈ bodies, body ≠ [])
    (none : m.numFuncImports = 0) (all : bodies.length = m.functions.length) :
    ∃ functions, parseSectionCode m octets = .ok { m with functions := functions } ∧
      functions.length = m.functions.length ∧
      ∀ (i : Nat) body, bodies[i]? = Option.some body → ∃ wasm, code body wasm ∧
        functions[i]? = m.functions[i]?.map fun func =>
          { func with wasm := Option.some wasm } := by
  obtain ⟨number, entries, counted, each, rfl⟩ := whole
  obtain ⟨count, first, same⟩ := read_u32 counted entries
  obtain ⟨functions, parsed, -, length, given⟩ := parseCodes_complete each some 0 none []
  rw [List.append_nil, ← same] at parsed
  refine ⟨functions, ok_bind.mpr ⟨_, first, ?_⟩, length, fun i body found => ?_⟩
  · dsimp only
    rw [if_neg (by omega)]
    exact ok_bind.mpr ⟨_, parsed, if_neg (not_not.mpr rfl)⟩
  · obtain ⟨wasm, encodes, at_i⟩ := given i body found
    rw [Nat.zero_add] at at_i
    exact ⟨wasm, encodes, at_i⟩

/-! ## A module of functions -/

/-- What the parser demands of a module of functions. -/
structure Sane (fm : FuncModule) : Prop where
  types : fm.types.length ≤ maxSaneCount
  few : ∀ type ∈ fm.types,
    type.rets.length + type.args.length ≤ maxSaneFunctionArgRetCount
  funcs : fm.funcs.length ≤ maxSaneCount
  typed : ∀ func ∈ fm.funcs, func.type < fm.types.length
  bodies : ∀ func ∈ fm.funcs, func.body ≠ []
  exports : fm.exports.length ≤ maxSaneEntries
  names : ∀ e ∈ fm.exports, e.name.length ≤ 10000
  exported : ∀ e ∈ fm.exports, e.index < fm.funcs.length

/-- Function `i` of the module, with its body in these octets. -/
def parsedFunc (fm : FuncModule) (i : Nat) (func : Func) (wasm : List UInt8) : ParsedFunction :=
  { exportedAs (namesOf fm.exports i) (declared (fm.types.map funcTypeOf) func.type) with
    wasm := some wasm }

theorem withNames_nil (types : List M3FuncType) (indexes : List Nat) :
    withNames [] (indexes.map (declared types)) = indexes.map (declared types) := by
  refine List.ext_getElem? fun i => ?_
  rw [withNames, List.getElem?_mapIdx, List.getElem?_map]
  cases indexes[i]? <;> rfl

/-- The functions of the module are those of `fm`, and it has nothing else. -/
structure Holds (fm : FuncModule) (m : M3Module) : Prop where
  bare : m.bare = true
  started : m.startFunction = none
  count : m.functions.length = fm.funcs.length
  functions : ∀ i func, fm.funcs[i]? = some func → ∃ wasm, code func.body wasm ∧
    m.functions[i]? = some (parsedFunc fm i func wasm)

theorem parseFuncModule_complete {fm : FuncModule} {binary : List UInt8} (sane : Sane fm)
    (encodes : funcModule fm binary) (initExpr : InitExpr) (environment : List M3FuncType) :
    ∃ m, m3ParseModule initExpr environment binary = .ok m ∧ Holds fm m := by
  obtain ⟨types, funcs, exports, bodies, typeSection, funcSection, exportSection, codeSection,
    whole⟩ := encodes
  let declaredFuncs := (fm.funcs.map Func.type).map (declared (fm.types.map funcTypeOf))
  have named : (withNames fm.exports declaredFuncs).length = fm.funcs.length := by
    simp [withNames, declaredFuncs]
  have parseTypes := parseSectionType_complete sane.types sane.few typeSection environment
  have parseFuncs := parseSectionFunction_complete (m := withTypes environment fm.types)
    (by rw [List.length_map]; exact sane.funcs)
    (fun type inside => by
      obtain ⟨func, present, rfl⟩ := List.mem_map.mp inside
      exact (sane.typed func present).trans_eq (List.length_map ..).symm) funcSection rfl
  have parseExports := parseSectionExport_complete
    (m := { withTypes environment fm.types with functions := declaredFuncs }) sane.exports
    sane.names (fun e present => by simpa [declaredFuncs] using sane.exported e present)
    exportSection (withNames_nil _ _)
  obtain ⟨functions, parseBodies, length, given⟩ := parseSectionCode_complete
    (m := { withTypes environment fm.types with
      functions := withNames fm.exports declaredFuncs }) codeSection
    (fun body inside => by
      obtain ⟨func, present, rfl⟩ := List.mem_map.mp inside
      exact sane.bodies func present) rfl (by rw [List.length_map]; exact named.symm)
  refine ⟨{ withTypes environment fm.types with functions := functions },
    m3ParseModule_iff.mpr ⟨_, whole, ?_, ?_⟩, rfl, rfl, length.trans named,
    fun i func found => ?_⟩
  · show [1, 3, 7, 10].Sublist sectionNumbers
    decide
  · exact ok_bind.mpr ⟨_, parseTypes, ok_bind.mpr ⟨_, parseFuncs,
      ok_bind.mpr ⟨_, parseExports, ok_bind.mpr ⟨_, parseBodies, rfl⟩⟩⟩⟩
  · have body : (fm.funcs.map Func.body)[i]? = some func.body := by
      rw [List.getElem?_map, found]
      rfl
    obtain ⟨wasm, encoded, at_i⟩ := given i func.body body
    refine ⟨wasm, encoded, ?_⟩
    rw [at_i]
    dsimp only
    rw [withNames, List.getElem?_mapIdx, List.getElem?_map, List.getElem?_map, found]
    rfl

/-! ## Lookup -/

section Lookup
variable {m : M3Module} {utf8 : List UInt8} {f : ParsedFunction}

/-- A function that is found has the name, where the exported name is one of its names. -/
theorem findFunction_sound
    (exported : ∀ f ∈ m.functions, ∀ utf8, f.exportName = some utf8 → utf8 ∈ f.names)
    (found : m.findFunction utf8 = some f) :
    ∃ i : Nat, m.functions[i]? = some f ∧ ∃ known ∈ f.names, cstr known = cstr utf8 := by
  rcases Option.or_eq_some_iff.mp found with found | ⟨-, found⟩
  · have inside := List.mem_of_find?_eq_some found
    have passes := List.find?_some found
    obtain ⟨known, is, same⟩ := (Option.any_eq_true ..).mp passes
    obtain ⟨i, at_i⟩ := List.mem_iff_getElem?.mp inside
    exact ⟨i, at_i, known, exported f inside known is, beq_iff_eq.mp same⟩
  · obtain ⟨i, at_i⟩ := List.mem_iff_getElem?.mp (List.mem_of_find?_eq_some found)
    have passes := List.find?_some found
    obtain ⟨-, named⟩ := Bool.and_eq_true_iff.mp passes
    obtain ⟨known, inside, same⟩ := List.any_eq_true.mp named
    exact ⟨i, at_i, known, inside, beq_iff_eq.mp same⟩

/-- Some function is found under each name of a function that is not an import. -/
theorem findFunction_some {known : List UInt8} (inside : f ∈ m.functions)
    (plain : f.importInfo = none) (named : known ∈ f.names) (same : cstr known = cstr utf8) :
    ∃ f', m.findFunction utf8 = some f' := by
  refine Option.ne_none_iff_exists'.mp fun absent => ?_
  have second := (Option.or_eq_none_iff.mp absent).2
  refine List.find?_eq_none.mp second f inside (Bool.and_eq_true_iff.mpr ⟨?_, ?_⟩)
  · rw [plain]
    rfl
  · exact List.any_eq_true.mpr ⟨known, named, beq_iff_eq.mpr same⟩

end Lookup

theorem mem_namesOf {exports : List FuncExport} {i : Nat} {utf8 : List UInt8} :
    utf8 ∈ namesOf exports i ↔ ∃ e ∈ exports, e.index = i ∧ e.name = utf8 := by
  simp [namesOf, and_assoc]

section Holds
variable {fm : FuncModule} {m : M3Module}

theorem Holds.made (holds : Holds fm m) {i : Nat} {f : ParsedFunction}
    (at_i : m.functions[i]? = some f) : ∃ func wasm, f = parsedFunc fm i func wasm := by
  have below : i < fm.funcs.length := by
    rw [← holds.count]
    exact (List.getElem?_eq_some_iff.mp at_i).1
  obtain ⟨wasm, -, same⟩ := holds.functions i _ (List.getElem?_eq_getElem below)
  exact ⟨_, wasm, Option.some.inj (at_i.symm.trans same)⟩

theorem Holds.findFunction_sound (holds : Holds fm m) {utf8 : List UInt8} {f : ParsedFunction}
    (found : m.findFunction utf8 = some f) : ∃ i : Nat, m.functions[i]? = some f ∧
      ∃ known ∈ (namesOf fm.exports i).take maxDuplicateFunctionImpl, cstr known = cstr utf8 := by
  obtain ⟨i, at_i, known, inside, same⟩ := Parser.findFunction_sound (fun f inside name is => by
    obtain ⟨i, at_i⟩ := List.mem_iff_getElem?.mp inside
    obtain ⟨func, wasm, rfl⟩ := holds.made at_i
    exact List.mem_of_getLast? is) found
  obtain ⟨func, wasm, rfl⟩ := holds.made at_i
  exact ⟨i, at_i, known, inside, same⟩

/-- Where a name belongs to one function, that function is found under it, if it keeps it. -/
theorem Holds.findFunction_iff (holds : Holds fm m)
    (apart : ∀ e ∈ fm.exports, ∀ e' ∈ fm.exports, cstr e.name = cstr e'.name →
      e.index = e'.index) {utf8 : List UInt8} {f : ParsedFunction} :
    m.findFunction utf8 = some f ↔ ∃ i : Nat, m.functions[i]? = some f ∧
      ∃ known ∈ (namesOf fm.exports i).take maxDuplicateFunctionImpl, cstr known = cstr utf8 := by
  refine ⟨holds.findFunction_sound, ?_⟩
  rintro ⟨i, at_i, known, inside, same⟩
  obtain ⟨func, wasm, rfl⟩ := holds.made at_i
  obtain ⟨other, found⟩ := findFunction_some (List.mem_of_getElem? at_i) rfl inside same
  -- whatever is found has the name too, and the name belongs to one function
  obtain ⟨i', at_i', known', inside', same'⟩ := holds.findFunction_sound found
  obtain ⟨e, present, rfl, rfl⟩ := mem_namesOf.mp (List.mem_of_mem_take inside)
  obtain ⟨e', present', rfl, rfl⟩ := mem_namesOf.mp (List.mem_of_mem_take inside')
  rw [apart e' present' e present (same'.trans same.symm), at_i] at at_i'
  rw [found, Option.some.inj at_i']

end Holds

/-! ## Bodies for the compiler -/

/-- The parser leaves a body where the compiler reads it. -/
theorem encodesBody_of {body : Body} {octets wasm : List UInt8} (is : bodyOctets body octets)
    (placed : code octets wasm) : EncodesBody body wasm := by
  obtain ⟨number, blocks, instrs, counted, locals, encodes, rfl⟩ := is
  obtain ⟨size, sized, rfl⟩ := placed
  exact .intro sized.1 counted.1 counted.2 locals encodes

theorem parsedFunc_type {fm : FuncModule} {i : Nat} {func : Func} {type : Signature}
    (typed : fm.types[func.type]? = some type) (wasm : List UInt8) :
    (parsedFunc fm i func wasm).funcType = funcTypeOf type := by
  show (fm.types.map funcTypeOf).getD func.type ⟨[], []⟩ = funcTypeOf type
  rw [List.getD_eq_getElem?_getD, List.getElem?_map, typed]
  rfl

end VelumOS.Spec.Parser
