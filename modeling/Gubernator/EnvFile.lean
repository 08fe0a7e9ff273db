import Gubernator.Library.GoStrings
import Gubernator.Library.BitFlags
import Gubernator.Workers

/-!
config.go takes its settings from the environment, which `fromEnvFile` can
first fill from a file of `KEY=value` lines. A line that is empty or starts
with `#`, a space or a tab is skipped; any other is cut at its first `=`, and
its key and value, trimmed, are set with `os.Setenv`. A line without `=` is an
error naming the line's number, counted from zero, and so is a setting
`os.Setenv` refuses; the settings of the lines before stay set, since the
environment is the process's. `getEnvSlice` reads a variable as a list cut at
its commas, and `getEnvMetricFlags` turns the names `os` and `golang` in the
list into `MetricFlags` bits. The read of the file, which fails only in its
reader, and the log lines are left out.
-/

namespace Gubernator

open GoStrings

/-- The environment as `os.Getenv` reads it: the empty string for a variable
that is not set. -/
abbrev Env := String → String

/-- `os.Setenv` on Unix: a key that is empty or holds `=` or NUL, or a value
that holds NUL, is refused. -/
def setenv (env : Env) (key value : String) : Except String Env :=
  if key.toList = [] ∨ '=' ∈ key.toList ∨ '\x00' ∈ key.toList ∨ '\x00' ∈ value.toList then
    .error "setenv: invalid argument"
  else .ok fun name => if name = key then value else env name

/-- The lines `fromEnvFile` skips: comments, lines that start with a space or a
tab, and empty lines. -/
def skipLine (line : List Char) : Bool :=
  line.head? = some '#' || line.head? = some ' ' || line.head? = some '\t' || line.length = 0

/-- The loop of `fromEnvFile`, from line number `i` on: the error it returns,
if any, and the environment it leaves. -/
def fromLines (env : Env) (i : Nat) : List (List Char) → Except String Unit × Env
  | [] => (.ok (), env)
  | line :: rest =>
    if skipLine line then fromLines env (i + 1) rest
    else
      match splitFirst '=' line with
      | [key, value] =>
        match setenv env (String.ofList (trimSpace key)) (String.ofList (trimSpace value)) with
        | .error err =>
          (.error (wrapError ("while settings environ for '" ++ String.ofList key ++ "=" ++
            String.ofList value ++ "'") err), env)
        | .ok env => fromLines env (i + 1) rest
      | _ => (.error ("malformed key=value on line '" ++ toString i ++ "'"), env)

def fromEnvFile (env : Env) (contents : String) : Except String Unit × Env :=
  fromLines env 0 (contents.toList.splitOn '\n')

def getEnvSlice (env : Env) (name : String) : List String :=
  if env name = "" then [] else ((env name).toList.splitOn ',').map String.ofList

abbrev MetricFlags := BitVec 64

def flagOSMetrics : MetricFlags := BitVec.twoPow 64 0

def flagGolangMetrics : MetricFlags := BitVec.twoPow 64 1

namespace MetricFlags

def set (f flag : MetricFlags) (set : Bool) : MetricFlags := BitFlags.setFlag f flag set

def has (f flag : MetricFlags) : Bool := BitFlags.hasFlag f flag

end MetricFlags

/-- The loop body of `getEnvMetricFlags`: a known name sets its flag, any other
is logged and skipped. -/
def addMetricFlag (result : MetricFlags) (f : String) : MetricFlags :=
  if f = "os" then result.set flagOSMetrics true
  else if f = "golang" then result.set flagGolangMetrics true
  else result

def getEnvMetricFlags (env : Env) (name : String) : MetricFlags :=
  let flags := getEnvSlice env name
  if flags.length = 0 then 0 else flags.foldl addMetricFlag 0

/-! An env file as it is written: lines of one of four kinds. -/

/-- A line of an env file. -/
inductive EnvLine
  | blank
  | comment (text : String)
  | indented (text : String)
  | assign (key value : String)

namespace EnvLine

def render : EnvLine → List Char
  | blank => []
  | comment text => '#' :: text.toList
  | indented text => ' ' :: text.toList
  | assign key value => key.toList ++ '=' :: value.toList

def apply (env : Env) : EnvLine → Env
  | assign key value => fun name => if name = key then value else env name
  | _ => env

/-- A line that reads back as it is meant: no newline in it, and for an
assignment a key that is not empty, trimmed, not a comment and free of `=` and
NUL, and a value that is trimmed and free of NUL. -/
def WellFormed : EnvLine → Prop
  | blank => True
  | comment text => '\n' ∉ text.toList
  | indented text => '\n' ∉ text.toList
  | assign key value =>
    key.toList ≠ [] ∧ key.toList.head? ≠ some '#' ∧ Trimmed key.toList ∧ Trimmed value.toList ∧
      '=' ∉ key.toList ∧ '\n' ∉ key.toList ∧ '\x00' ∉ key.toList ∧
      '\n' ∉ value.toList ∧ '\x00' ∉ value.toList

instance : DecidablePred WellFormed := fun line => by
  cases line <;> unfold WellFormed <;> infer_instance

end EnvLine

def renderEnvFile (lines : List EnvLine) : String :=
  String.ofList (['\n'].intercalate (lines.map EnvLine.render))

/-! Reading a file back. Each line is read on its own: a well-formed line does
to the environment what it says, and the loop goes on with the next number. -/

namespace EnvLine

theorem newline_not_mem_render {line : EnvLine} (wellFormed : line.WellFormed) : '\n' ∉ line.render := by
  cases line with
  | blank => simp [render]
  | comment text => simpa [render, WellFormed] using wellFormed
  | indented text => simpa [render, WellFormed] using wellFormed
  | assign key value =>
    obtain ⟨-, -, -, -, -, keyPlain, -, valuePlain, -⟩ := wellFormed
    simp [render, keyPlain, valuePlain]

-- A trimmed key that is not a comment starts a line the loop reads.
theorem skipLine_assign {key value : String} (nonempty : key.toList ≠ []) (notComment : key.toList.head? ≠ some '#')
    (trimmed : Trimmed key.toList) : skipLine (assign key value).render = false := by
  obtain ⟨c, rest, split⟩ := List.exists_cons_of_ne_nil nonempty
  have first : isSpace c = false := trimmed.head c (by simp [split])
  have notHash : c ≠ '#' := fun same => notComment (by simp [split, same])
  have notSpace : c ≠ ' ' := fun same => by simp [same, isSpace] at first
  have notTab : c ≠ '\t' := fun same => by simp [same, isSpace] at first
  simp [skipLine, render, split, notHash, notSpace, notTab]

theorem setenv_assign {key value : String} (nonempty : key.toList ≠ []) (noEquals : '=' ∉ key.toList)
    (keyNul : '\x00' ∉ key.toList) (valueNul : '\x00' ∉ value.toList) (env : Env) :
    setenv env key value = .ok ((assign key value).apply env) := by
  rw [setenv, if_neg (by simp [nonempty, noEquals, keyNul, valueNul])]
  rfl

end EnvLine

theorem fromLines_render (env : Env) (i : Nat) {line : EnvLine} (wellFormed : line.WellFormed)
    (rest : List (List Char)) :
    fromLines env i (line.render :: rest) = fromLines (line.apply env) (i + 1) rest := by
  cases line with
  | blank => simp [fromLines, skipLine, EnvLine.render, EnvLine.apply]
  | comment text => simp [fromLines, skipLine, EnvLine.render, EnvLine.apply]
  | indented text => simp [fromLines, skipLine, EnvLine.render, EnvLine.apply]
  | assign key value =>
    obtain ⟨nonempty, notComment, keyTrimmed, valueTrimmed, noEquals, -, keyNul, -, valueNul⟩ := wellFormed
    -- The line is read, cut at the `=` after the key, and both halves are already trimmed.
    rw [fromLines, if_neg (by rw [EnvLine.skipLine_assign nonempty notComment keyTrimmed]; decide),
      EnvLine.render, splitFirst_append noEquals]
    dsimp only
    rw [trimSpace_of_trimmed keyTrimmed, trimSpace_of_trimmed valueTrimmed, String.ofList_toList,
      String.ofList_toList, EnvLine.setenv_assign nonempty noEquals keyNul valueNul]

theorem fromLines_append (lines : List EnvLine) (wellFormed : ∀ line ∈ lines, line.WellFormed)
    (env : Env) (i : Nat) (rest : List (List Char)) :
    fromLines env i (lines.map EnvLine.render ++ rest) =
      fromLines (lines.foldl EnvLine.apply env) (i + lines.length) rest := by
  induction lines generalizing env i with
  | nil => rfl
  | cons line lines ih =>
    rw [List.map_cons, List.cons_append, fromLines_render env i (wellFormed line List.mem_cons_self),
      ih (fun l member => wellFormed l (List.mem_cons_of_mem line member)), List.foldl_cons,
      List.length_cons, Nat.add_assoc, Nat.add_comm 1]

theorem splitOn_intercalate_render {pieces : List (List Char)} (nonempty : pieces ≠ [])
    (plain : ∀ piece ∈ pieces, '\n' ∉ piece) :
    (String.ofList (['\n'].intercalate pieces)).toList.splitOn '\n' = pieces := by
  rw [String.toList_ofList, List.splitOn_intercalate '\n' plain nonempty]

/-- A file of well-formed lines reads back as written: `fromEnvFile` succeeds
and sets each key to the value of its last assignment, whatever comments,
indented lines and blank lines stand between them. -/
theorem fromEnvFile_renderEnvFile (env : Env) (lines : List EnvLine)
    (wellFormed : ∀ line ∈ lines, line.WellFormed) :
    fromEnvFile env (renderEnvFile lines) = (.ok (), lines.foldl EnvLine.apply env) := by
  cases lines with
  | nil =>
    -- The empty file is one empty line.
    rfl
  | cons first rest =>
    have plain : ∀ piece ∈ (first :: rest).map EnvLine.render, '\n' ∉ piece := by
      intro piece member
      obtain ⟨line, inLines, rfl⟩ := List.mem_map.mp member
      exact EnvLine.newline_not_mem_render (wellFormed line inLines)
    rw [fromEnvFile, renderEnvFile, splitOn_intercalate_render (by simp) plain,
      ← List.append_nil ((first :: rest).map EnvLine.render), fromLines_append _ wellFormed]
    rfl

def sampleEnvFile : List EnvLine :=
  [.comment " gubernator", .assign "GUBER_CACHE_SIZE" "50000", .blank, .indented "GUBER_DEBUG=true",
    .assign "GUBER_ETCD_KEY_PREFIX" "/gubernator=peers", .assign "GUBER_CACHE_SIZE" "100"]

theorem fromEnvFile_renderEnvFile_sample :
    (∀ line ∈ sampleEnvFile, line.WellFormed) ∧
      fromEnvFile (fun _ => "") (renderEnvFile sampleEnvFile) =
        (.ok (), sampleEnvFile.foldl EnvLine.apply fun _ => "") :=
  have wellFormed : ∀ line ∈ sampleEnvFile, line.WellFormed := by
    simp [sampleEnvFile, EnvLine.WellFormed, Trimmed, isSpace]
  ⟨wellFormed, fromEnvFile_renderEnvFile _ sampleEnvFile wellFormed⟩

/-- A line that the loop reads and that has no `=` stops it: `fromEnvFile`
fails naming that line's number, counted from zero, and the environment keeps
what the lines before it set. The lines after it are never read: any text does. -/
theorem fromEnvFile_malformed (env : Env) (good : List EnvLine) (rest : List (List Char))
    (goodFormed : ∀ line ∈ good, line.WellFormed) (restPlain : ∀ piece ∈ rest, '\n' ∉ piece)
    {bad : String} (read : skipLine bad.toList = false) (noEquals : '=' ∉ bad.toList)
    (noNewline : '\n' ∉ bad.toList) :
    fromEnvFile env (String.ofList (['\n'].intercalate (good.map EnvLine.render ++ bad.toList :: rest))) =
      (.error ("malformed key=value on line '" ++ toString good.length ++ "'"), good.foldl EnvLine.apply env) := by
  have plain : ∀ piece ∈ good.map EnvLine.render ++ bad.toList :: rest, '\n' ∉ piece := by
    intro piece member
    rcases List.mem_append.mp member with before | after
    · obtain ⟨line, inGood, rfl⟩ := List.mem_map.mp before
      exact EnvLine.newline_not_mem_render (goodFormed line inGood)
    · rcases List.mem_cons.mp after with rfl | later
      · exact noNewline
      · exact restPlain piece later
  rw [fromEnvFile, splitOn_intercalate_render (by simp) plain, fromLines_append good goodFormed, fromLines,
    if_neg (by rw [read]; decide), splitFirst_of_not_mem noEquals, Nat.zero_add]

theorem fromEnvFile_malformed_second :
    (∀ line ∈ [EnvLine.assign "GUBER_CACHE_SIZE" "50000"], line.WellFormed) ∧
      (∀ piece ∈ ["=== not read".toList], '\n' ∉ piece) ∧ skipLine "GUBER_DEBUG".toList = false ∧
      '=' ∉ "GUBER_DEBUG".toList ∧ '\n' ∉ "GUBER_DEBUG".toList ∧
      fromEnvFile (fun _ => "") (String.ofList (['\n'].intercalate
          ([EnvLine.assign "GUBER_CACHE_SIZE" "50000"].map EnvLine.render ++ "GUBER_DEBUG".toList ::
            ["=== not read".toList]))) =
        (.error ("malformed key=value on line '" ++ toString [EnvLine.assign "GUBER_CACHE_SIZE" "50000"].length ++
          "'"), [EnvLine.assign "GUBER_CACHE_SIZE" "50000"].foldl EnvLine.apply fun _ => "") :=
  have goodFormed : ∀ line ∈ [EnvLine.assign "GUBER_CACHE_SIZE" "50000"], line.WellFormed := by
    simp [EnvLine.WellFormed, Trimmed, isSpace]
  have restPlain : ∀ piece ∈ ["=== not read".toList], '\n' ∉ piece := by decide
  have read : skipLine "GUBER_DEBUG".toList = false := by decide
  have noEquals : '=' ∉ "GUBER_DEBUG".toList := by decide
  have noNewline : '\n' ∉ "GUBER_DEBUG".toList := by decide
  ⟨goodFormed, restPlain, read, noEquals, noNewline,
    fromEnvFile_malformed _ _ _ goodFormed restPlain read noEquals noNewline⟩

end Gubernator
