import VelumOS.Source.Spawn

/-!
# Command line of the user program

The `wasm` and `scatter` commands of `src/main.cpp`: a line is taken apart with
`ss >> word`, which skips white space and takes the octets up to the next one, and with
`ss >> number`. Nothing bounds the length of a word or their number; a number that is
not an `int` fails the stream.
-/
namespace VelumOS.Source
open Base.CString

/-- `ss >> word`: the next word and what is left, or the failure of the stream. -/
def extract (ss : List UInt8) : Option (List UInt8 × List UInt8) :=
  match ss.dropWhile isSpace with
  | [] => none
  | c :: rest => some (c :: rest.takeWhile (! isSpace ·), rest.dropWhile (! isSpace ·))

/-- `while (ss >> temp) args.push_back(temp)`; each word takes at least one octet of
the line, so `size` of them are enough. -/
def extractArgs : Nat → List UInt8 → List (List UInt8)
  | 0, _ => []
  | size + 1, ss =>
    match extract ss with
    | none => []
    | some (temp, rest) => temp :: extractArgs size rest

/-- The arguments of the call of `velum_spawn_wasm`. -/
structure WasmCommand where
  file : List UInt8
  func : List UInt8
  args : List (List UInt8)
  deriving DecidableEq

/-- The call that `main` makes for a line of input, if it is a `wasm` command with a
file and a function. -/
def wasmCommand (line : List UInt8) : Option WasmCommand := do
  let (cmd, ss) ← extract line
  if cmd = [119, 97, 115, 109] then do
    let (file, ss) ← extract ss
    let (func, ss) ← extract ss
    some ⟨file, func, extractArgs ss.length ss⟩
  else none

/-- The sign of a number, if it has one. -/
def extractSign : List UInt8 → Bool × List UInt8
  | 45 :: rest => (true, rest)
  | 43 :: rest => (false, rest)
  | rest => (false, rest)

/-- `ss >> number` for an `int`: white space, one sign, digits. -/
def extractInt (ss : List UInt8) : Option (Int32 × List UInt8) :=
  let (negative, rest) := extractSign (ss.dropWhile isSpace)
  let digits := rest.takeWhile isDigit
  let value : Int := if negative then -(digitsValue digits : Int) else digitsValue digits
  if digits = [] then none
  else if -2 ^ 31 ≤ value ∧ value < 2 ^ 31 then some (Int32.ofInt value, rest.dropWhile isDigit)
  else none

/-- The arguments of the call of `velum_spawn_wasm_distributed`. -/
structure ScatterCommand where
  file : List UInt8
  func : List UInt8
  start : Int32
  stop : Int32
  deriving DecidableEq

/-- The call that `main` makes for a `scatter` command, if the stream holds all four. -/
def scatterCommand (line : List UInt8) : Option ScatterCommand := do
  let (cmd, ss) ← extract line
  if cmd = [115, 99, 97, 116, 116, 101, 114] then do
    let (file, ss) ← extract ss
    let (func, ss) ← extract ss
    let (start, ss) ← extractInt ss
    let (stop, _) ← extractInt ss
    some ⟨file, func, start, stop⟩
  else none

/-! ## What a command line holds -/

/-- A word is extracted up to the white space behind it. -/
theorem extract_word (gap word rest : List UInt8) (blank : ∀ octet ∈ gap, isSpace octet = true)
    (nonempty : word ≠ []) (plain : ∀ octet ∈ word, isSpace octet = false)
    (ends : ∀ octet ∈ rest.head?, isSpace octet = true) :
    extract (gap ++ (word ++ rest)) = some (word, rest) := by
  cases word with
  | nil => exact absurd rfl nonempty
  | cons first tail =>
    have skipped : (gap ++ (first :: tail ++ rest)).dropWhile isSpace = first :: (tail ++ rest) :=
      (span_run isSpace gap _ blank (by simp [plain first])).2
    obtain ⟨taken, left⟩ := span_run (! isSpace ·) tail rest
      (fun octet member => by simp [plain octet (List.mem_cons_of_mem _ member)])
      (fun octet first => by simp [ends octet first])
    simp only [extract, skipped, taken, left]

/-- The sign of a printed number. -/
theorem extractSign_decimal (n : Int) (rest : List UInt8) :
    extractSign (decimal n ++ rest) = (decide (n < 0), digitsOf n.natAbs ++ rest) := by
  by_cases negative : n < 0
  · simp only [decimal, negative, if_true, List.cons_append, extractSign, decide_true]
  · simp only [decimal, negative, if_false, decide_false]
    cases digits : digitsOf n.natAbs with
    | nil => exact absurd digits (digitsOf_ne_nil _)
    | cons octet tail =>
      obtain ⟨_, notMinus, notPlus⟩ :=
        digit_plain octet (digitsOf_isDigit n.natAbs octet (by simp [digits]))
      unfold extractSign
      split
      · next eq => exact absurd (List.cons.inj eq).1 notMinus
      · next eq => exact absurd (List.cons.inj eq).1 notPlus
      · rfl

/-- A number is extracted as it was printed. -/
theorem extractInt_decimal (n : Int32) (gap rest : List UInt8)
    (blank : ∀ octet ∈ gap, isSpace octet = true)
    (ends : ∀ octet ∈ rest.head?, isDigit octet = false) :
    extractInt (gap ++ (decimal n.toInt ++ rest)) = some (n, rest) := by
  have low := n.le_toInt
  have high := n.toInt_lt
  obtain ⟨nonempty, plain⟩ := decimal_plain n.toInt
  have skipped : (gap ++ (decimal n.toInt ++ rest)).dropWhile isSpace = decimal n.toInt ++ rest := by
    refine (span_run isSpace gap _ blank ?_).2
    rw [List.head?_append_of_ne_nil _ nonempty]
    exact fun octet first => plain octet (List.mem_of_mem_head? first)
  obtain ⟨taken, left⟩ := span_run isDigit (digitsOf n.toInt.natAbs) rest (digitsOf_isDigit _) ends
  have value : (if decide (n.toInt < 0) = true then -(n.toInt.natAbs : Int) else n.toInt.natAbs) =
      n.toInt := by
    simp only [decide_eq_true_eq]
    split <;> omega
  simp only [extractInt, skipped, extractSign_decimal, taken, left, digitsValue_digitsOf, value,
    digitsOf_ne_nil, if_false]
  rw [if_pos ⟨low, high⟩, Int32.ofInt_toInt]

/-- The line of a `scatter` command. -/
def ScatterCommand.line (command : ScatterCommand) : List UInt8 :=
  [115, 99, 97, 116, 116, 101, 114] ++ ([32] ++ (command.file ++ ([32] ++ (command.func ++
    ([32] ++ (decimal command.start.toInt ++ ([32] ++ (decimal command.stop.toInt ++ []))))))))

/-- Every pair of `int`s is accepted, with every file and function that are words. -/
theorem scatterCommand_line (command : ScatterCommand)
    (file : command.file ≠ [] ∧ ∀ octet ∈ command.file, isSpace octet = false)
    (func : command.func ≠ [] ∧ ∀ octet ∈ command.func, isSpace octet = false) :
    scatterCommand command.line = some command := by
  have blank : ∀ octet ∈ ([32] : List UInt8), isSpace octet = true := by simp [isSpace]
  have spaced (rest : List UInt8) : ∀ octet ∈ ([32] ++ rest).head?, isSpace octet = true := by
    simp [isSpace]
  have ended (rest : List UInt8) : ∀ octet ∈ ([32] ++ rest).head?, isDigit octet = false := by
    simp [isDigit]
  have cmd (rest : List UInt8) : extract ([115, 99, 97, 116, 116, 101, 114] ++ ([32] ++ rest)) =
      some ([115, 99, 97, 116, 116, 101, 114], [32] ++ rest) :=
    extract_word [] [115, 99, 97, 116, 116, 101, 114] _ (by simp) (by simp) (by simp [isSpace])
      (spaced rest)
  simp only [scatterCommand, ScatterCommand.line, cmd, bind, Option.bind_some, if_true,
    extract_word _ _ _ blank file.1 file.2 (spaced _),
    extract_word _ _ _ blank func.1 func.2 (spaced _), extractInt_decimal _ _ _ blank (ended _),
    extractInt_decimal command.stop [32] [] blank (by simp)]

end VelumOS.Source
