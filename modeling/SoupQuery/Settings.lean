import SoupQuery.TableMapping

/-!
# Settings from the environment

Environment variables name the table of records and the database. The case of a setting's name
does not matter, so two variables may name the same setting, which is an error.

* `Environment` — the variables that are set, in order.
* `settingOf?` — the setting that a variable names.
* `TableMapping.ofEnvironment`, `databaseUrl` — the settings that are read.
-/

namespace SoupQuery

/-- Names and values of variables. Each name occurs once. -/
abbrev Environment := List (String × String)

/-- Sets a variable; one that is set already keeps its place. -/
def Environment.set (environment : Environment) (name value : String) : Environment :=
  match environment with
  | [] => [(name, value)]
  | entry :: rest =>
    if entry.1 = name then (name, value) :: rest else entry :: Environment.set rest name value

/-- The environment after the assignments, in order. -/
def Environment.ofAssignments (assignments : List (String × String)) : Environment :=
  assignments.foldl (fun environment entry => environment.set entry.1 entry.2) []

inductive SettingsError where
  | duplicate (setting : String)
  deriving DecidableEq, Repr, Inhabited

def SettingsError.message : SettingsError → String
  | .duplicate setting => "duplicate field `" ++ setting ++ "`"

/-- Lower case as far as it can make a name of ASCII letters: the capitals, and the Kelvin sign,
whose lower case is the letter `k`. -/
def lowerCase (c : Char) : Char := if c = '\u212A' then 'k' else c.toLower

def settingName (name : List Char) : String := String.ofList (name.map lowerCase)

/-- What follows the marker in a name that starts with it. -/
def dropMarker? : List Char → List Char → Option (List Char)
  | [], name => some name
  | _ :: _, [] => none
  | m :: marker, c :: name => if m = c then dropMarker? marker name else none

theorem dropMarker?_length {marker name rest : List Char}
    (h : dropMarker? marker name = some rest) : rest.length + marker.length = name.length := by
  induction marker generalizing name with
  | nil => cases h; rfl
  | cons m marker ih =>
    cases name with
    | nil => cases h
    | cons c name =>
      by_cases hc : m = c
      · rw [dropMarker?, if_pos hc] at h
        simp only [List.length_cons]
        rw [← ih h]; omega
      · rw [dropMarker?, if_neg hc] at h
        cases h

/-- What is left of a name that starts with the marker, however often it is repeated. -/
def stripMarker (marker name : List Char) : List Char :=
  match h : dropMarker? marker name with
  | none => name
  | some rest =>
    if hmarker : marker = [] then name
    else
      have : rest.length < name.length := by
        have := dropMarker?_length h
        have := List.length_pos_iff.2 hmarker
        omega
      stripMarker marker rest
termination_by name.length

/-- The setting that a variable with the marker gives a value to. -/
def settingOf? (marker name : List Char) : Option String :=
  (dropMarker? marker name).map fun rest => settingName (stripMarker marker rest)

/-- The values given to the named settings, in order. -/
def Environment.settings (environment : Environment) (marker : String) (names : List String) :
    List (String × String) :=
  (environment.filterMap fun entry =>
    (settingOf? marker.toList entry.1.toList).map fun setting => (setting, entry.2)).filter
      fun entry => names.contains entry.1

def firstRepeated? : List String → List String → Option String
  | _, [] => none
  | seen, name :: rest =>
    if seen.contains name then some name else firstRepeated? (name :: seen) rest

/-- The settings with the given names, each of which may be given once. -/
def Environment.read (environment : Environment) (marker : String) (names : List String) :
    Except SettingsError (List (String × String)) :=
  let settings := environment.settings marker names
  match firstRepeated? [] (settings.map (·.1)) with
  | some name => .error (.duplicate name)
  | none => .ok settings

/-- The table of records: from variables that start with the marker, the rest of whose name is
that of a setting. -/
def TableMapping.ofEnvironment (marker : String) (environment : Environment) :
    Except SettingsError TableMapping := do
  let settings ← environment.read marker ["soup_table", "soup_column", "key_column"]
  let standard : TableMapping := {}
  return ⟨(settings.lookup "soup_table").getD standard.table,
    (settings.lookup "soup_column").getD standard.column,
    (settings.lookup "key_column").getD standard.key⟩

/-- The address of the database, which is in memory unless a variable names another. -/
def databaseUrl (environment : Environment) : Except SettingsError String := do
  let settings ← environment.read "" ["database_url"]
  return (settings.lookup "database_url").getD "sqlite::memory:"

end SoupQuery
