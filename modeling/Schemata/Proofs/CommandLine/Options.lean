import Schemata.CommandLine.Request
import Mathlib.Data.List.Induction

/-!
# What the arguments ask for

After the input the arguments spell a row of options. Of the options that set one thing the last
counts, and a word for such an option that ends the arguments counts for nothing.
-/
namespace Schemata.CommandLine

/-- An option, with its value if it takes one. -/
inductive Given
  | choice (choice : Choice) (value : String)
  | force
deriving DecidableEq, Repr

/-- The options that arguments spell. -/
inductive Spells : List String → List Given → Prop
  | nil : Spells [] []
  | lacking {argument : String} {choice : Choice}
    (h : Choice.ofArgument? argument = some choice) : Spells [argument] []
  | choice {argument : String} {choice : Choice} (value : String) {rest : List String}
    {options : List Given} (h : Choice.ofArgument? argument = some choice)
    (hrest : Spells rest options) :
    Spells (argument :: value :: rest) (.choice choice value :: options)
  | force {rest : List String} {options : List Given} (hrest : Spells rest options) :
    Spells ("--force" :: rest) (.force :: options)

/-- A job with one more option. -/
def Job.give (job : Job) : Given → Job
  | .choice choice value => job.set value choice
  | .force => { job with force := true }

theorem ofArgument?_force : Choice.ofArgument? "--force" = none := by decide

theorem readOptions_of_spells {arguments : List String} {options : List Given}
    (h : Spells arguments options) (job : Job) :
    readOptions job arguments = .convert (options.foldl Job.give job) := by
  induction h generalizing job with
  | nil => rfl
  | lacking h =>
    rw [readOptions, h]
    rfl
  | choice value h _ ih =>
    rw [readOptions, h]
    exact ih (job.give (.choice _ value))
  | @force rest options _ ih =>
    have hforce := ih (job.give .force)
    cases rest with
    | nil =>
      rw [readOptions, ofArgument?_force]
      exact hforce
    | cons value rest =>
      rw [readOptions, ofArgument?_force]
      exact hforce

theorem exists_spells {arguments : List String} {job job' : Job}
    (h : readOptions job arguments = .convert job') :
    ∃ options, Spells arguments options ∧ job' = options.foldl Job.give job := by
  fun_induction readOptions job arguments with
  | case1 job => exact ⟨[], .nil, (Request.convert.inj h).symm⟩
  | case2 job argument choice hchoice =>
    exact ⟨[], .lacking hchoice, (Request.convert.inj h).symm⟩
  | case3 job => exact ⟨[.force], .force .nil, (Request.convert.inj h).symm⟩
  | case4 => cases h
  | case5 job argument value rest choice hchoice ih =>
    obtain ⟨options, hrest, rfl⟩ := ih h
    exact ⟨.choice choice value :: options, .choice value hchoice hrest, rfl⟩
  | case6 job value rest hchoice ih =>
    obtain ⟨options, hrest, rfl⟩ := ih h
    exact ⟨.force :: options, .force hrest, rfl⟩
  | case7 => cases h

theorem readOptions_eq_convert {arguments : List String} {job job' : Job} :
    readOptions job arguments = .convert job' ↔
      ∃ options, Spells arguments options ∧ job' = options.foldl Job.give job :=
  ⟨exists_spells, fun ⟨_, hspells, hjob⟩ => hjob ▸ readOptions_of_spells hspells job⟩

/-! ### What is in effect -/

def Given.value? (choice : Choice) : Given → Option String
  | .choice other value => if other = choice then some value else none
  | .force => none

/-- The value in effect: the last that is given. -/
def lastValue? (choice : Choice) (options : List Given) : Option String :=
  (options.filterMap (Given.value? choice)).getLast?

theorem lastValue?_push (choice : Choice) (options : List Given) (given : Given) :
    lastValue? choice (options ++ [given]) =
      (given.value? choice).or (lastValue? choice options) := by
  rw [lastValue?, List.filterMap_append]
  cases h : given.value? choice <;> simp [lastValue?, h]

/-- Options in effect, said by themselves. -/
def jobOf (input : String) (options : List Given) : Job where
  input := input
  source := lastValue? .source options
  target := (lastValue? .target options).getD "sql"
  output := lastValue? .output options
  database := lastValue? .database options
  force := options.contains .force

theorem foldl_give (input : String) (options : List Given) :
    options.foldl Job.give { input } = jobOf input options := by
  induction options using List.reverseRecOn with
  | nil => rfl
  | append_singleton options given ih =>
    rw [List.foldl_append, ih]
    rcases given with ⟨choice, value⟩ | _
    · cases choice <;> simp [jobOf, Job.give, Job.set, lastValue?_push, Given.value?]
    · simp [jobOf, Job.give, lastValue?_push, Given.value?]

/-- A conversion is asked for exactly by an input with options, and with the values in effect. -/
theorem ofArguments_eq_convert {arguments : List String} {job : Job} :
    Request.ofArguments arguments = .convert job ↔ ∃ input rest options,
      arguments = input :: rest ∧ input ≠ "--list" ∧ Spells rest options ∧
      job = jobOf input options := by
  cases arguments with
  | nil => simp [Request.ofArguments]
  | cons input rest =>
    dsimp only [Request.ofArguments]
    by_cases hlist : input = "--list"
    · simp [hlist]
    · rw [if_neg hlist, readOptions_eq_convert]
      simp only [foldl_give, List.cons.injEq]
      constructor
      · rintro ⟨options, hspells, rfl⟩
        exact ⟨input, rest, options, ⟨rfl, rfl⟩, hlist, hspells, rfl⟩
      · rintro ⟨_, _, options, ⟨rfl, rfl⟩, -, hspells, rfl⟩
        exact ⟨options, hspells, rfl⟩

theorem readOptions_ne_list (job : Job) (arguments : List String) :
    readOptions job arguments ≠ .list := by
  fun_induction readOptions job arguments with
  | case1 | case2 | case3 | case4 | case7 => exact nofun
  | case5 _ _ _ _ _ _ ih => exact ih
  | case6 _ _ _ _ ih => exact ih

theorem ofArguments_eq_list {arguments : List String} :
    Request.ofArguments arguments = .list ↔ ∃ rest, arguments = "--list" :: rest := by
  cases arguments with
  | nil => simp [Request.ofArguments]
  | cons input rest =>
    dsimp only [Request.ofArguments]
    by_cases hlist : input = "--list" <;> simp [hlist, readOptions_ne_list]

end Schemata.CommandLine
