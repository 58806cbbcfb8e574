import PrimitiveDB.DelimitedText
import PrimitiveDB.ParseTrees

/-!
# Measurement logs

`parseHeader` and `logOne` of `perf_measure.C`. A log is a line of metric names and below it
one line of values for each measurement; the columns are those of the first line, which a
later call reads back. In which order `getMetricNames` goes through an unordered map is left
open: the names are given with each call.
-/

namespace PrimitiveDB.PerfLog

open DelimitedText

set_option autoImplicit false

structure PerfResult where
  name : Text
  measure : Nat

/-- `unordered_map<string, int>`; the first entry for a name counts. -/
abbrev Headers := List (Text × Nat)

def comma : ByteMemory.Byte := 44

def newline : ByteMemory.Byte := 10

/-- `order[word] = orderID++` for one word after the other. -/
def number : Headers → Nat → List Text → Headers
  | order, _, [] => order
  | order, orderID, word :: words => number ((word, orderID) :: order) (orderID + 1) words

def fields (line : Text) : List Text := pieces comma line

def parseHeader (contents : Text) : Headers :=
  match getline newline contents with
  | none => []
  | some (line, _) => number [] 0 (fields line)

/-- The loop that fills `values`. A name that `headers` lacks is entered with the index zero;
there is no result if an index lies outside the vector. -/
def place : Headers → List Nat → List PerfResult → Option (List Nat)
  | _, values, [] => some values
  | headers, values, measure :: round =>
      match headers.lookup measure.name with
      | some index =>
          if index < values.length then place headers (values.set index measure.measure) round
          else none
      | none =>
          if 0 < values.length then
            place ((measure.name, 0) :: headers) (values.set 0 measure.measure) round
          else none

def logged (metricNames : List Text) (round : List PerfResult) (contents : Text) :
    Option Text :=
  let headers := parseHeader contents
  let named := if headers = [] then number [] 0 metricNames else headers
  let head := if headers = [] then separated comma true metricNames ++ [newline] else []
  (place named (List.replicate round.length 0) round).map fun values =>
    head ++ separated comma true (values.map Literal.decimal) ++ [newline]

/-- A call of `logOne` with the prefix of its process. -/
structure LogCall where
  LogPrefix : Text
  path : Text
  metricNames : List Text
  round : List PerfResult

def LogCall.usePath (call : LogCall) : Text := call.LogPrefix ++ call.path

abbrev Logs := Text → Text

def logOne (call : LogCall) (logs : Logs) : Option Logs :=
  (logged call.metricNames call.round (logs call.usePath)).map fun appended =>
    Function.update logs call.usePath (logs call.usePath ++ appended)

def logAll (logs : Logs) : List LogCall → Option Logs
  | [] => some logs
  | call :: calls => do
      let logs ← logOne call logs
      logAll logs calls

/-- A call measures metrics with distinct names without a comma, in whatever order. -/
structure LogCall.Measures (call : LogCall) : Prop where
  names : call.metricNames.Perm (call.round.map PerfResult.name)
  distinct : call.metricNames.Nodup
  clean : ∀ name ∈ call.metricNames, comma ∉ name

structure RowMatches (columns : List Text) (round : List PerfResult) (row : Text) : Prop where
  /-- one field per column -/
  count : (fields row).length = columns.length
  /-- a metric that the header names stands under its column -/
  named : ∀ measure ∈ round, ∀ index : Nat, columns[index]? = some measure.name →
    (fields row)[index]? = some (Literal.decimal measure.measure)
  /-- a column whose metric has not been measured shows no other value -/
  unmeasured : ∀ index : Nat, ∀ name, columns[index]? = some name →
    name ∉ round.map PerfResult.name → (fields row)[index]? = some (Literal.decimal 0)

def Aligned (contents : Text) : List (List PerfResult) → Prop
  | [] => contents = []
  | rounds => ∃ header rows, pieces newline contents = header :: rows ∧
      List.Forall₂ (RowMatches (fields header)) rounds rows

section Headers

variable {order : Headers} {words : List Text} {word : Text}

theorem number_lookup_other (orderID : Nat) (absent : word ∉ words) :
    (number order orderID words).lookup word = order.lookup word := by
  induction words generalizing order orderID with
  | nil => rfl
  | cons first words ih =>
      rw [List.mem_cons, not_or] at absent
      rw [number, ih (orderID + 1) absent.2, List.lookup_cons, beq_false_of_ne absent.1]

theorem number_lookup (distinct : words.Nodup) (orderID : Nat) {index : Nat}
    (there : words[index]? = some word) :
    (number order orderID words).lookup word = some (orderID + index) := by
  induction words generalizing order orderID index with
  | nil => simp at there
  | cons first words ih =>
      obtain ⟨fresh, later⟩ := List.nodup_cons.mp distinct
      cases index with
      | zero =>
          obtain rfl : first = word := by simpa using there
          rw [number, number_lookup_other _ fresh, List.lookup_cons, beq_self_eq_true]
          rfl
      | succ index =>
          rw [number, ih later (orderID + 1) (by simpa using there)]
          congr 1
          omega

theorem number_columns (distinct : words.Nodup) (index : Nat) (name : Text)
    (there : words[index]? = some name) : (number [] 0 words).lookup name = some index := by
  rw [number_lookup distinct 0 there, Nat.zero_add]

theorem number_eq_nil_iff (order : Headers) (orderID : Nat) (words : List Text) :
    number order orderID words = [] ↔ order = [] ∧ words = [] := by
  induction words generalizing order orderID with
  | nil => simp [number]
  | cons first words ih => simp [number, ih]

end Headers

section Place

variable {headers : Headers} {values : List Nat} {round : List PerfResult}

/-- Metrics that have columns of their own are stored there, and nothing else changes. -/
theorem place_stores (distinct : (round.map PerfResult.name).Nodup)
    (columns : ∀ measure ∈ round, ∃ index < values.length,
      headers.lookup measure.name = some index)
    (apart : ∀ measure ∈ round, ∀ other ∈ round,
      headers.lookup measure.name = headers.lookup other.name → measure.name = other.name) :
    ∃ values', place headers values round = some values' ∧ values'.length = values.length ∧
      (∀ measure ∈ round, ∀ index, headers.lookup measure.name = some index →
        values'[index]? = some measure.measure) ∧
      ∀ index, (∀ measure ∈ round, headers.lookup measure.name ≠ some index) →
        values'[index]? = values[index]? := by
  induction round generalizing values with
  | nil => exact ⟨values, rfl, rfl, by simp, fun _ _ => rfl⟩
  | cons first round ih =>
      obtain ⟨fresh, later⟩ := List.nodup_cons.mp distinct
      obtain ⟨index, inside, found⟩ := columns first (by simp)
      obtain ⟨values', placed, size, stored, kept⟩ := @ih (values.set index first.measure)
        later
        (fun measure member => by simpa using columns measure (by simp [member]))
        (fun measure member other member' => apart measure (by simp [member]) other
          (by simp [member']))
      -- the rest of the round does not come back to the column of the first metric
      have away : ∀ measure ∈ round, headers.lookup measure.name ≠ some index := by
        intro measure member same
        have equal := apart measure (by simp [member]) first (by simp) (same.trans found.symm)
        exact fresh (equal ▸ List.mem_map_of_mem member)
      refine ⟨values', ?_, by simpa using size, ?_, ?_⟩
      · simp only [place, found]
        rw [if_pos inside, placed]
      · intro measure member other there
        rcases List.mem_cons.mp member with rfl | rest
        · obtain rfl : index = other := Option.some.inj (found.symm.trans there)
          rw [kept index away, List.getElem?_set_self inside]
        · exact stored measure rest other there
      · intro other free
        rw [kept other fun measure member => free measure (by simp [member])]
        apply List.getElem?_set_ne
        rintro rfl
        exact free first (by simp) found

end Place

theorem decimal_digits (value : Nat) :
    ∀ char ∈ Literal.decimal value, char ≠ comma ∧ char ≠ newline := by
  intro char member
  obtain ⟨digit, shown, rfl⟩ := List.mem_map.mp member
  have isDigit := Nat.isDigit_of_mem_toDigits (by decide) (by decide) shown
  have bounds : 48 ≤ digit.toNat ∧ digit.toNat ≤ 57 := by
    simpa [Char.isDigit, UInt32.le_iff_toNat_le] using isDigit
  have numeral : (ByteMemory.byteOf digit.toNat).val = digit.toNat := by
    simp only [ByteMemory.byteOf]
    omega
  constructor
  · intro same
    have value := congrArg Fin.val same
    rw [numeral] at value
    simp only [comma] at value
    omega
  · intro same
    have value := congrArg Fin.val same
    rw [numeral] at value
    simp only [newline] at value
    omega

theorem decimal_ne_nil (value : Nat) : Literal.decimal value ≠ [] := by
  simp [Literal.decimal, Nat.toDigits_ne_nil]

theorem fields_row (values : List Nat) :
    fields (separated comma true (values.map Literal.decimal)) =
      values.map Literal.decimal := by
  apply pieces_separated
  · intro field member
    obtain ⟨value, _, rfl⟩ := List.mem_map.mp member
    exact fun char => (decimal_digits value comma char).1 rfl
  · intro last
    rw [List.getLast?_map, Option.map_eq_some_iff] at last
    obtain ⟨value, _, empty⟩ := last
    exact decimal_ne_nil value empty

theorem newline_not_mem_separated {written : List Text} (clean : ∀ piece ∈ written,
    newline ∉ piece) (first : Bool) : newline ∉ separated comma first written := by
  induction written generalizing first with
  | nil => simp [separated]
  | cons piece written ih =>
      have rest := ih (fun other member => clean other (by simp [member])) false
      have here := clean piece (by simp)
      have plain : newline ≠ comma := by decide
      cases first <;> simp [separated, here, rest, plain]

theorem newline_not_mem_row (values : List Nat) :
    newline ∉ separated comma true (values.map Literal.decimal) := by
  apply newline_not_mem_separated
  intro field member
  obtain ⟨value, _, rfl⟩ := List.mem_map.mp member
  exact fun char => (decimal_digits value newline char).2 rfl

/-- A round of as many metrics as there are columns, all of them with a column, makes a row
that matches. -/
theorem row_matches {columns : List Text} {headers : Headers} {round : List PerfResult}
    (found : ∀ (index : Nat) (name : Text), columns[index]? = some name →
      headers.lookup name = some index)
    (distinct : (round.map PerfResult.name).Nodup) (count : round.length = columns.length)
    (named : ∀ measure ∈ round, measure.name ∈ columns) :
    ∃ values, place headers (List.replicate round.length 0) round = some values ∧
      RowMatches columns round (separated comma true (values.map Literal.decimal)) := by
  have column : ∀ measure ∈ round, ∃ index < columns.length,
      columns[index]? = some measure.name ∧ headers.lookup measure.name = some index := by
    intro measure member
    obtain ⟨index, inside, there⟩ := List.mem_iff_getElem.mp (named measure member)
    have here : columns[index]? = some measure.name := List.getElem?_eq_some_iff.mpr ⟨inside, there⟩
    exact ⟨index, inside, here, found index _ here⟩
  have inside : ∀ measure ∈ round, ∃ index < (List.replicate round.length 0).length,
      headers.lookup measure.name = some index := by
    intro measure member
    obtain ⟨index, inside, _, there⟩ := column measure member
    exact ⟨index, by simpa [count] using inside, there⟩
  have apart : ∀ measure ∈ round, ∀ other ∈ round,
      headers.lookup measure.name = headers.lookup other.name → measure.name = other.name := by
    intro measure member other member' same
    obtain ⟨index, _, here, there⟩ := column measure member
    obtain ⟨index', _, here', there'⟩ := column other member'
    rw [there, there', Option.some.injEq] at same
    subst same
    exact Option.some.inj (here.symm.trans here')
  obtain ⟨values, placed, size, stored, kept⟩ := place_stores distinct inside apart
  refine ⟨values, placed, ?_, ?_, ?_⟩
  · rw [fields_row, List.length_map, size, List.length_replicate, count]
  · intro measure member index there
    rw [fields_row, List.getElem?_map, stored measure member index (found index _ there)]
    rfl
  · intro index name there absent
    have free : ∀ measure ∈ round, headers.lookup measure.name ≠ some index := by
      intro measure member same
      obtain ⟨index', _, here, there'⟩ := column measure member
      obtain rfl : index = index' := Option.some.inj (same.symm.trans there')
      obtain rfl : name = measure.name := Option.some.inj (there.symm.trans here)
      exact absent (List.mem_map_of_mem member)
    have inside : index < round.length := by
      rw [count]
      exact (List.getElem?_eq_some_iff.mp there).1
    rw [fields_row, List.getElem?_map, kept index free, List.getElem?_replicate, if_pos inside]
    rfl

def columnsOf (contents : Text) : List Text :=
  (getline newline contents).elim [] fun line => fields line.1

theorem parse_header_columns (contents : Text) :
    parseHeader contents = number [] 0 (columnsOf contents) := by
  unfold parseHeader columnsOf
  cases getline newline contents <;> rfl

/-- What a call must find: a new file whose header will be read back as it is written, or a
file that has a column for each metric of the round and no other. -/
def LogCall.Fits (call : LogCall) (contents : Text) : Prop :=
  contents = [] ∧ call.metricNames ≠ [] ∧ call.metricNames.getLast? ≠ some [] ∧
      (∀ name ∈ call.metricNames, newline ∉ name) ∨
    contents ≠ [] ∧ call.round.length = (columnsOf contents).length ∧
      ∀ measure ∈ call.round, measure.name ∈ columnsOf contents

/-- A file with a header that is read back, and with matching rows. -/
structure Logged (contents : Text) (names : List Text) (rounds : List (List PerfResult))
    (rows : List Text) : Prop where
  contents : contents = terminated newline (separated comma true names :: rows)
  nonempty : names ≠ []
  distinct : names.Nodup
  fields : fields (separated comma true names) = names
  clean : ∀ line ∈ separated comma true names :: rows, newline ∉ line
  rows : List.Forall₂ (RowMatches names) rounds rows

section Calls

variable {contents : Text} {names rows : List Text} {rounds : List (List PerfResult)}
  {call : LogCall}

theorem Logged.columns (logged : Logged contents names rounds rows) :
    columnsOf contents = names := by
  have first : getline newline contents =
      some (separated comma true names, terminated newline rows) := by
    rw [logged.contents]
    have split : terminated newline (separated comma true names :: rows) =
        separated comma true names ++ newline :: terminated newline rows := by simp [terminated]
    rw [split, getline_delimited (logged.clean _ (by simp))]
  rw [columnsOf, first]
  exact logged.fields

theorem Logged.aligned {round : List PerfResult}
    (logged : Logged contents names (round :: rounds) rows) :
    Aligned contents (round :: rounds) := by
  refine ⟨separated comma true names, rows, ?_, ?_⟩
  · rw [logged.contents]
    exact pieces_terminated logged.clean
  · rw [logged.fields]
    exact logged.rows

theorem Logged.append (logged : Logged contents names rounds rows) {round : List PerfResult}
    {row : Text} (matches_ : RowMatches names round row) (clean : newline ∉ row) :
    Logged (contents ++ (row ++ [newline])) names (rounds ++ [round]) (rows ++ [row]) where
  contents := by
    rw [logged.contents]
    simp [terminated]
  nonempty := logged.nonempty
  distinct := logged.distinct
  fields := logged.fields
  clean := by
    intro line member
    rw [← List.cons_append] at member
    rcases List.mem_append.mp member with before | last
    · exact logged.clean line before
    · rw [List.mem_singleton.mp last]
      exact clean
  rows := List.rel_append logged.rows (.cons matches_ .nil)

theorem Logged.log_later (logged_ : Logged contents names rounds rows) (measures : call.Measures)
    (fits : call.Fits contents) :
    ∃ appended row, logged call.metricNames call.round contents = some appended ∧
      Logged (contents ++ appended) names (rounds ++ [call.round]) (rows ++ [row]) := by
  have written : contents ≠ [] := by
    rw [logged_.contents]
    simp [terminated]
  obtain ⟨new, _⟩ | ⟨_, count, named⟩ := fits
  · exact absurd new written
  · rw [logged_.columns] at count named
    have headers : parseHeader contents = number [] 0 names := by
      rw [parse_header_columns, logged_.columns]
    have known : number [] 0 names ≠ [] := by
      rw [ne_eq, number_eq_nil_iff]
      exact fun empty => logged_.nonempty empty.2
    obtain ⟨values, placed, matches_⟩ := row_matches (number_columns logged_.distinct)
      (measures.names.nodup_iff.mp measures.distinct) count named
    refine ⟨_, _, ?_, logged_.append matches_ (newline_not_mem_row values)⟩
    simp only [logged, headers, if_neg known, placed]
    rfl

theorem logged_first (measures : call.Measures) (fits : call.Fits []) :
    ∃ appended row, logged call.metricNames call.round [] = some appended ∧
      Logged appended call.metricNames [call.round] [row] := by
  obtain ⟨_, nonempty, last, clean⟩ | ⟨written, _⟩ := fits
  · have size : call.round.length = call.metricNames.length := by
      simpa using measures.names.length_eq.symm
    obtain ⟨values, placed, matches_⟩ := row_matches (number_columns measures.distinct)
      (measures.names.nodup_iff.mp measures.distinct) size
      (fun measure member => measures.names.mem_iff.mpr (List.mem_map_of_mem member))
    have appends : logged call.metricNames call.round [] = some (
        separated comma true call.metricNames ++ [newline] ++
          separated comma true (values.map Literal.decimal) ++ [newline]) := by
      simp only [logged, parseHeader, getline, if_pos, placed]
      rfl
    refine ⟨_, separated comma true (values.map Literal.decimal), appends, ?_⟩
    · refine ⟨by simp [terminated], nonempty, measures.distinct,
        pieces_separated measures.clean last, ?_, .cons matches_ .nil⟩
      intro line member
      rcases List.mem_cons.mp member with rfl | row
      · exact newline_not_mem_separated clean true
      · rw [List.mem_singleton.mp row]
        exact newline_not_mem_row values
  · exact absurd rfl written

end Calls

def AllFit : Logs → List LogCall → Prop
  | _, [] => True
  | logs, call :: calls => call.Fits (logs call.usePath) ∧
      ∀ logs', logOne call logs = some logs' → AllFit logs' calls

def roundsAt (calls : List LogCall) (path : Text) : List (List PerfResult) :=
  (calls.filter fun call => call.usePath = path).map LogCall.round

def AllLogged (logs : Logs) (rounds : Text → List (List PerfResult)) : Prop :=
  ∀ path, rounds path = [] ∧ logs path = [] ∨
    rounds path ≠ [] ∧ ∃ names rows, Logged (logs path) names (rounds path) rows

section Files

variable {logs : Logs} {rounds : Text → List (List PerfResult)} {call : LogCall}

theorem AllLogged.log_one (all : AllLogged logs rounds) (measures : call.Measures)
    (fits : call.Fits (logs call.usePath)) :
    ∃ logs', logOne call logs = some logs' ∧
      AllLogged logs' fun path => rounds path ++ roundsAt [call] path := by
  -- the file of the call gets a row, and the others stay
  have here : ∃ appended names rows,
      logged call.metricNames call.round (logs call.usePath) = some appended ∧
      Logged (logs call.usePath ++ appended) names (rounds call.usePath ++ [call.round]) rows := by
    rcases all call.usePath with ⟨first, new⟩ | ⟨_, names, rows, logged_⟩
    · rw [new] at fits ⊢
      obtain ⟨appended, row, appends, logged_⟩ := logged_first measures fits
      rw [first]
      exact ⟨appended, _, _, appends, logged_⟩
    · obtain ⟨appended, row, appends, logged_⟩ := logged_.log_later measures fits
      exact ⟨appended, _, _, appends, logged_⟩
  obtain ⟨appended, names, rows, appends, logged_⟩ := here
  refine ⟨Function.update logs call.usePath (logs call.usePath ++ appended), ?_, ?_⟩
  · rw [logOne, appends]
    rfl
  · intro path
    by_cases same : call.usePath = path
    · subst same
      refine .inr ⟨by simp [roundsAt], names, rows, ?_⟩
      rw [Function.update_self]
      simpa [roundsAt] using logged_
    · rw [Function.update_of_ne (Ne.symm same)]
      simpa [roundsAt, same] using all path

theorem AllLogged.log_all (all : AllLogged logs rounds) {calls : List LogCall}
    (measures : ∀ call ∈ calls, call.Measures) (fit : AllFit logs calls) :
    ∃ logs', logAll logs calls = some logs' ∧
      AllLogged logs' fun path => rounds path ++ roundsAt calls path := by
  induction calls generalizing logs rounds with
  | nil => exact ⟨logs, rfl, by simpa [roundsAt] using all⟩
  | cons call calls ih =>
      obtain ⟨logs₁, first, all₁⟩ := all.log_one (measures call (by simp)) fit.1
      obtain ⟨logs', rest, all'⟩ := ih all₁ (fun other member => measures other (by simp [member]))
        (fit.2 logs₁ first)
      refine ⟨logs', ?_, ?_⟩
      · rw [logAll, first]
        exact rest
      · have split : ∀ path, roundsAt (call :: calls) path =
            roundsAt [call] path ++ roundsAt calls path := by
          intro path
          rw [roundsAt, roundsAt, roundsAt, ← List.map_append, ← List.filter_append]
          rfl
        simpa only [split, ← List.append_assoc] using all'

/-- If every call measures the metrics of the header of its file, under whatever order, or
begins a file with a header that can be read back, no call leaves its vector, and each file
has one row for each of its calls that matches the header. -/
theorem rows_match_header (calls : List LogCall) (measures : ∀ call ∈ calls, call.Measures)
    (fit : AllFit (fun _ => []) calls) :
    ∃ logs, logAll (fun _ => []) calls = some logs ∧
      ∀ path, Aligned (logs path) (roundsAt calls path) := by
  have start : AllLogged (fun _ => []) fun _ => [] := fun _ => .inl ⟨rfl, rfl⟩
  obtain ⟨logs, runs, all⟩ := start.log_all measures fit
  refine ⟨logs, runs, fun path => ?_⟩
  have file := all path
  simp only [List.nil_append] at file
  rcases file with ⟨none_, new⟩ | ⟨some_, names, rows, logged_⟩
  · rw [none_]
    exact new
  · obtain ⟨round, rounds, given⟩ := List.exists_cons_of_ne_nil some_
    rw [given] at logged_ ⊢
    exact logged_.aligned

end Files

def callOn (metricNames : List Text) (round : List PerfResult) : LogCall :=
  { LogPrefix := [], path := [112], metricNames, round }

def abCall : LogCall := callOn [[97], [98]] [⟨[97], 1⟩, ⟨[98], 2⟩]

def baCall : LogCall := callOn [[97], [98]] [⟨[98], 4⟩, ⟨[97], 3⟩]

theorem ab_call_contents {logs : Logs} (run : logOne abCall (fun _ => []) = some logs) :
    logs [112] = [97, 44, 98, 10, 49, 44, 50, 10] := by
  have contents : (logOne abCall fun _ => []).map (fun logs => logs [112]) =
      some [97, 44, 98, 10, 49, 44, 50, 10] := by decide +kernel
  rw [run] at contents
  exact Option.some.inj contents

theorem rows_match_header_reordered :
    ∃ logs, logAll (fun _ => []) [abCall, baCall] = some logs ∧
      ∀ path, Aligned (logs path) (roundsAt [abCall, baCall] path) := by
  apply rows_match_header
  · have ab : abCall.Measures := ⟨by decide, by decide, by decide⟩
    have ba : baCall.Measures := ⟨by decide, by decide, by decide⟩
    simp [ab, ba]
  · refine ⟨.inl ⟨rfl, by decide, by decide, by decide⟩, ?_⟩
    intro logs run
    refine ⟨.inr ?_, fun _ _ => trivial⟩
    have contents : logs baCall.usePath = _ := ab_call_contents run
    rw [contents]
    exact ⟨by decide, by decide +kernel, by decide +kernel⟩

def abcCall : LogCall := callOn [[97], [98], [99]] [⟨[97], 5⟩, ⟨[98], 6⟩, ⟨[99], 7⟩]

def bCall : LogCall := callOn [[98]] [⟨[98], 8⟩]

/-- A new metric makes a longer row and overwrites the value of the first column; a missing
one makes the vector too short for the others. -/
theorem other_metrics_break_rows :
    (abCall.Measures ∧ abcCall.Measures ∧ bCall.Measures) ∧
      (logAll (fun _ => []) [abCall, abcCall]).map (fun logs => logs [112]) =
        some ([97, 44, 98, 10] ++ [49, 44, 50, 10] ++ [55, 44, 54, 44, 48, 10]) ∧
      ¬Aligned ([97, 44, 98, 10] ++ [49, 44, 50, 10] ++ [55, 44, 54, 44, 48, 10])
        (roundsAt [abCall, abcCall] [112]) ∧
      logAll (fun _ => []) [abCall, bCall] = none := by
  refine ⟨⟨⟨by decide, by decide, by decide⟩, ⟨by decide, by decide, by decide⟩,
    ⟨by decide, by decide, by decide⟩⟩, by decide +kernel, ?_, ?_⟩
  · rintro ⟨header, rows, split, matches_⟩
    have lines : pieces newline ([97, 44, 98, 10] ++ [49, 44, 50, 10] ++ [55, 44, 54, 44, 48, 10]) =
        [[97, 44, 98], [49, 44, 50], [55, 44, 54, 44, 48]] := by decide +kernel
    rw [lines] at split
    obtain ⟨rfl, rfl⟩ := List.cons.inj split
    obtain ⟨_, second⟩ := List.forall₂_cons.mp matches_
    have count := (List.forall₂_cons.mp second).1.count
    exact absurd count (by decide +kernel)
  · have gone : ((logAll (fun _ => []) [abCall, bCall]).isNone) = true := by decide +kernel
    exact Option.isNone_iff_eq_none.mp gone

end PrimitiveDB.PerfLog
