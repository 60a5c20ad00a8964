import PortableActions.Proofs.Text.Parts
import PortableActions.Proofs.Text.Replacement
import PortableActions.Runner
-- What a chain of actions asks of the executor and of the provider of the classpath. Both may
-- do anything to the state; a chain is told apart from others by the calls it makes, in order.
namespace PortableActions

-- A command mentions the classpath exactly if its template or one of its arguments does.
theorem deps_appended (template : Text) (args : List Text) :
    Text.mentions Template.Marker.deps (appendArguments template args) = true ↔
      Template.Marker.deps <:+: template ∨ ∃ arg ∈ args, Template.Marker.deps <:+: arg := by
  have outside : ' ' ∉ Template.Marker.deps := by decide
  have filled : Template.Marker.deps ≠ [] := by decide
  rw [Text.mentions_exact filled]
  cases args with
  | nil => simp [appendArguments]
  | cons first rest =>
    simp only [appendArguments, Text.unwords, List.append_assoc, List.singleton_append]
    rw [Text.infix_around outside, Text.infix_join outside filled]

namespace Runner

-- What is asked of the world around a runner.
inductive Event where
  | asked
  | ran (call : Call)
  deriving DecidableEq, Repr

section
variable {ε σ α : Type}

-- The same call, with a note that it was made.
def noted (event : Event) (call : EStateM ε σ α) : EStateM ε (σ × List Event) α := fun state =>
  match call state.1 with
  | .ok answer after => .ok answer (after, state.2 ++ [event])
  | .error failure after => .error failure (after, state.2 ++ [event])

def withLog (log : List Event) : EStateM.Result ε σ α → EStateM.Result ε (σ × List Event) α
  | .ok answer after => .ok answer (after, log)
  | .error failure after => .error failure (after, log)

def withoutLog : EStateM.Result ε (σ × List Event) α → EStateM.Result ε σ α
  | .ok answer after => .ok answer after.1
  | .error failure after => .error failure after.1

theorem withoutLog_withLog (log : List Event) (result : EStateM.Result ε σ α) :
    withoutLog (withLog log result) = result := by
  cases result <;> rfl

theorem withLog_inj {one two : List Event} {first second : EStateM.Result ε σ α}
    (same : withLog one first = withLog two second) : one = two ∧ first = second := by
  cases first with
  | ok answer after =>
    cases second with
    | ok other later => cases same; exact ⟨rfl, rfl⟩
    | error failure later => cases same
  | error failure after =>
    cases second with
    | ok answer later => cases same
    | error other later => cases same; exact ⟨rfl, rfl⟩

theorem noted_log (event : Event) (call : EStateM ε σ α) (before : σ) (log : List Event) :
    noted event call (before, log) = withLog (log ++ [event]) (call before) := by
  unfold noted
  cases call before <;> rfl

end

variable {σ : Type}

-- The runner with every call of its provider and of its executor noted.
def logged (runner : Runner σ) : Runner (σ × List Event) where
  actions := runner.actions
  provider := runner.provider.map (noted .asked)
  platform := runner.platform
  settings := runner.settings
  executor := fun call => noted (.ran call) (runner.executor call)

section
variable (runner : Runner σ) (args : List Text)

-- An action with these arguments has a use for the classpath.
def Wants (template : Text) : Prop :=
  Template.Marker.deps <:+: template ∨ ∃ arg ∈ args, Template.Marker.deps <:+: arg

-- What the executor is called with for a template.
def callFor (template : Text) (classpath : Option Classpath) : Call :=
  ⟨appendArguments template args, classpath, runner.platform, runner.settings⟩

-- Where the classpath of an action comes from: from the provider, if there is one and the
-- action has a use for it, and else it is empty.
inductive Resolves (before : σ) (template : Text) : List Event → Option Classpath → σ → Prop where
  | asked {provide : EStateM Failure σ (Option Classpath)} {classpath : Option Classpath} {after : σ}
      (given : runner.provider = some provide) (wanted : Wants args template)
      (answered : provide before = .ok classpath after) : Resolves before template [.asked] classpath after
  | spared (other : runner.provider = none ∨ ¬ Wants args template) : Resolves before template [] (some []) before

-- One position of a chain, with the calls that are made there and how it ends.
inductive Attempt (before : σ) : Text → List Event → EStateM.Result Failure σ Int → Prop where
  | unnamed : Attempt before [] [] (.error .actionNameRequired before)
  | undefined {name : Text} (named : name ≠ []) (absent : runner.actions.get? name = none) :
      Attempt before name [] (.error (.actionNotFound name) before)
  | unresolved {name template : Text} {provide : EStateM Failure σ (Option Classpath)} {failure : Failure} {after : σ}
      (named : name ≠ []) (found : runner.actions.get? name = some template)
      (given : runner.provider = some provide) (wanted : Wants args template)
      (failed : provide before = .error failure after) : Attempt before name [.asked] (.error failure after)
  | executed {name template : Text} {events : List Event} {classpath : Option Classpath} {middle : σ}
      (named : name ≠ []) (found : runner.actions.get? name = some template)
      (resolved : Resolves runner args before template events classpath middle) :
      Attempt before name (events ++ [.ran (runner.callFor args template classpath)])
        (runner.executor (runner.callFor args template classpath) middle)

-- Names whose actions all end with zero, one after the other.
inductive Passes : σ → List Text → List Event → σ → Prop where
  | nil {state : σ} : Passes state [] [] state
  | cons {before middle after : σ} {name : Text} {names : List Text} {events more : List Event}
      (first : Attempt runner args before name events (.ok 0 middle)) (rest : Passes middle names more after) :
      Passes before (name :: names) (events ++ more) after

-- A chain passes all of its names, or stops at the first that does not end with zero.
inductive Course (before : σ) : List Text → List Event → EStateM.Result Failure σ Int → Prop where
  | completed {names : List Text} {events : List Event} {after : σ}
      (passes : Passes runner args before names events after) : Course before names events (.ok 0 after)
  | stopped {earlier later : List Text} {name : Text} {events more : List Event} {middle : σ}
      {result : EStateM.Result Failure σ Int}
      (passes : Passes runner args before earlier events middle)
      (attempt : Attempt runner args middle name more result) (failing : ∀ after, result ≠ .ok 0 after) :
      Course before (earlier ++ name :: later) (events ++ more) result

end

variable {runner : Runner σ} {args : List Text}

theorem execute_unnamed (before : σ) : runner.execute [] args before = .error .actionNameRequired before := rfl

theorem execute_undefined {name : Text} (named : name ≠ []) (absent : runner.actions.get? name = none) (before : σ) :
    runner.execute name args before = .error (.actionNotFound name) before := by
  unfold execute
  rw [if_neg named, absent]
  rfl

theorem execute_found {name template : Text} (named : name ≠ []) (found : runner.actions.get? name = some template) :
    runner.execute name args = (do
      let classpath ← runner.classpathFor (appendArguments template args)
      runner.executor (runner.callFor args template classpath)) := by
  unfold execute
  rw [if_neg named, found]
  rfl

theorem classpathFor_asked {template : Text} {provide : EStateM Failure σ (Option Classpath)}
    (given : runner.provider = some provide) (wanted : Wants args template) :
    runner.classpathFor (appendArguments template args) = provide := by
  unfold classpathFor
  rw [given]
  exact if_pos ((deps_appended template args).mpr wanted)

theorem classpathFor_spared {template : Text} (other : runner.provider = none ∨ ¬ Wants args template) :
    runner.classpathFor (appendArguments template args) = pure (some []) := by
  unfold classpathFor
  cases given : runner.provider with
  | none => rfl
  | some provide =>
    rcases other with none_ | unwanted
    · rw [given] at none_
      cases none_
    · exact if_neg fun mentions => unwanted ((deps_appended template args).mp mentions)

theorem Resolves.log {before middle : σ} {template : Text} {events : List Event} {classpath : Option Classpath}
    (resolved : Resolves runner args before template events classpath middle) (log : List Event) :
    runner.logged.classpathFor (appendArguments template args) (before, log) = .ok classpath (middle, log ++ events) := by
  cases resolved with
  | asked given wanted answered =>
    have given_ : runner.logged.provider = some (noted .asked _) := congrArg (Option.map (noted .asked)) given
    rw [classpathFor_asked given_ wanted, noted_log, answered]
    rfl
  | spared other =>
    have other_ : runner.logged.provider = none ∨ ¬ Wants args template := by
      rcases other with none_ | unwanted
      · exact .inl (congrArg (Option.map (noted .asked)) none_)
      · exact .inr unwanted
    rw [classpathFor_spared other_, List.append_nil]
    rfl

-- What happens at one position is what is noted there.
theorem Attempt.log {before : σ} {name : Text} {events : List Event} {result : EStateM.Result Failure σ Int}
    (attempt : Attempt runner args before name events result) (log : List Event) :
    runner.logged.execute name args (before, log) = withLog (log ++ events) result := by
  cases attempt with
  | unnamed =>
    rw [execute_unnamed, List.append_nil]
    rfl
  | undefined named absent =>
    have absent_ : runner.logged.actions.get? name = none := absent
    rw [execute_undefined named absent_, List.append_nil]
    rfl
  | @unresolved _ template provide failure after named found given wanted failed =>
    have found_ : runner.logged.actions.get? name = some template := found
    have given_ : runner.logged.provider = some (noted .asked provide) := congrArg (Option.map (noted .asked)) given
    have asked : runner.logged.classpathFor (appendArguments template args) (before, log) =
        .error failure (after, log ++ [.asked]) := by
      rw [classpathFor_asked given_ wanted, noted_log, failed]
      rfl
    rw [execute_found named found_]
    simp only [bind, EStateM.bind, asked]
    rfl
  | executed named found resolved =>
    have found_ : runner.logged.actions.get? name = some _ := found
    have asked := resolved.log log
    rw [execute_found named found_]
    simp only [bind, EStateM.bind, asked]
    rw [← List.append_assoc]
    exact noted_log _ _ _ _

theorem attempt_exists (runner : Runner σ) (args : List Text) (before : σ) (name : Text) :
    ∃ events result, Attempt runner args before name events result := by
  by_cases named : name = []
  · subst named
    exact ⟨[], _, .unnamed⟩
  cases found : runner.actions.get? name with
  | none => exact ⟨[], _, .undefined named found⟩
  | some template =>
    by_cases wanted : Wants args template
    · cases given : runner.provider with
      | none => exact ⟨_, _, .executed named found (.spared (.inl given))⟩
      | some provide =>
        cases answered : provide before with
        | ok classpath after => exact ⟨_, _, .executed named found (.asked given wanted answered)⟩
        | error failure after => exact ⟨_, _, .unresolved named found given wanted answered⟩
    · exact ⟨_, _, .executed named found (.spared (.inr wanted))⟩

theorem runAll_passed {before after : σ} {name : Text} (passed : runner.execute name args before = .ok 0 after)
    (rest : List Text) : runner.runAll args (name :: rest) before = runner.runAll args rest after := by
  simp [runAll, bind, EStateM.bind, passed]

theorem runAll_failed {before : σ} {name : Text} {result : EStateM.Result Failure σ Int}
    (attempted : runner.execute name args before = result) (failing : ∀ after, result ≠ .ok 0 after)
    (rest : List Text) : runner.runAll args (name :: rest) before = result := by
  cases result with
  | error failure after => simp [runAll, bind, EStateM.bind, attempted]
  | ok code after =>
    have nonzero : code ≠ 0 := by
      rintro rfl
      exact failing after rfl
    simp [runAll, bind, EStateM.bind, attempted, nonzero, pure, EStateM.pure]

theorem withLog_failing {log : List Event} {result : EStateM.Result Failure σ Int}
    (failing : ∀ after, result ≠ .ok 0 after) : ∀ after, withLog log result ≠ .ok 0 after := by
  intro after same
  cases result with
  | error failure last => cases same
  | ok code last =>
    cases same
    exact failing last rfl

theorem Passes.log {before after : σ} {names : List Text} {events : List Event}
    (passes : Passes runner args before names events after) (rest : List Text) (log : List Event) :
    runner.logged.runAll args (names ++ rest) (before, log) = runner.logged.runAll args rest (after, log ++ events) := by
  induction passes generalizing log with
  | nil => rw [List.nil_append, List.append_nil]
  | @cons before middle after name names events more first _ ih =>
    rw [List.cons_append, runAll_passed (first.log log), ih, List.append_assoc]

theorem Course.log {before : σ} {names : List Text} {events : List Event} {result : EStateM.Result Failure σ Int}
    (course : Course runner args before names events result) :
    runner.logged.runAll args names (before, []) = withLog events result := by
  cases course with
  | completed passes =>
    have run := passes.log [] []
    rw [List.append_nil] at run
    exact run
  | stopped passes attempt failing =>
    rw [passes.log _ [], List.nil_append]
    exact runAll_failed (attempt.log _) (withLog_failing failing) _

theorem course_exists (runner : Runner σ) (args : List Text) (before : σ) (names : List Text) :
    ∃ events result, Course runner args before names events result := by
  induction names generalizing before with
  | nil => exact ⟨[], _, .completed .nil⟩
  | cons name rest ih =>
    obtain ⟨events, result, attempt⟩ := attempt_exists runner args before name
    by_cases passed : ∃ middle, result = .ok 0 middle
    · obtain ⟨middle, rfl⟩ := passed
      obtain ⟨more, last, course⟩ := ih middle
      cases course with
      | completed passes => exact ⟨_, _, .completed (.cons attempt passes)⟩
      | stopped passes there failing => exact ⟨_, _, .stopped (.cons attempt passes) there failing⟩
    · have failing : ∀ after, result ≠ .ok 0 after := fun after same => passed ⟨after, same⟩
      exact ⟨_, _, .stopped .nil attempt failing⟩

-- The same call but for the notes.
def Forgets {α : Type} (noting : EStateM Failure (σ × List Event) α) (plain : EStateM Failure σ α) : Prop :=
  ∀ state, withoutLog (noting state) = plain state.1

theorem forgets_noted {α : Type} (event : Event) (call : EStateM Failure σ α) : Forgets (noted event call) call := by
  rintro ⟨before, log⟩
  rw [noted_log, withoutLog_withLog]

theorem Forgets.bind {α β : Type} {noting : EStateM Failure (σ × List Event) α} {plain : EStateM Failure σ α}
    {notingNext : α → EStateM Failure (σ × List Event) β} {plainNext : α → EStateM Failure σ β}
    (first : Forgets noting plain) (next : ∀ answer, Forgets (notingNext answer) (plainNext answer)) :
    Forgets (noting >>= notingNext) (plain >>= plainNext) := by
  intro state
  have same := first state
  cases called : noting state with
  | ok answer after =>
    rw [called] at same
    simp only [Bind.bind, EStateM.bind, called, ← same, withoutLog]
    exact next answer after
  | error failure after =>
    rw [called] at same
    simp only [Bind.bind, EStateM.bind, called, ← same, withoutLog]

theorem classpathFor_forgets (command : Text) : Forgets (runner.logged.classpathFor command) (runner.classpathFor command) := by
  unfold classpathFor
  cases given : runner.provider with
  | none =>
    have given_ : runner.logged.provider = none := congrArg (Option.map (noted .asked)) given
    rw [given_]
    exact fun _ => rfl
  | some provide =>
    have given_ : runner.logged.provider = some (noted .asked provide) := congrArg (Option.map (noted .asked)) given
    rw [given_]
    dsimp only
    split
    · exact forgets_noted _ _
    · exact fun _ => rfl

theorem execute_forgets (name : Text) : Forgets (runner.logged.execute name args) (runner.execute name args) := by
  by_cases named : name = []
  · subst named
    exact fun _ => rfl
  cases found : runner.actions.get? name with
  | none =>
    have found_ : runner.logged.actions.get? name = none := found
    intro state
    rw [execute_undefined named found, execute_undefined named found_]
    rfl
  | some template =>
    have found_ : runner.logged.actions.get? name = some template := found
    rw [execute_found named found, execute_found named found_]
    exact (classpathFor_forgets _).bind fun classpath => forgets_noted _ _

theorem runAll_forgets (names : List Text) : Forgets (runner.logged.runAll args names) (runner.runAll args names) := by
  induction names with
  | nil => exact fun _ => rfl
  | cons name rest ih =>
    unfold runAll
    refine (execute_forgets name).bind fun code => ?_
    split
    · exact ih
    · exact fun _ => rfl

theorem run_names {names : List Text} (some_ : names ≠ []) : runner.run names args = runner.runAll args names :=
  if_neg some_

theorem runAll_append (xs ys : List Text) (before : σ) : runner.runAll args (xs ++ ys) before =
    match runner.runAll args xs before with
    | .ok code after => if code = 0 then runner.runAll args ys after else .ok code after
    | .error failure after => .error failure after := by
  induction xs generalizing before with
  | nil => rfl
  | cons name rest ih =>
    by_cases passed : ∃ middle, runner.execute name args before = .ok 0 middle
    · obtain ⟨middle, passed⟩ := passed
      rw [List.cons_append, runAll_passed passed, runAll_passed passed, ih]
    · have failing : ∀ after, runner.execute name args before ≠ .ok 0 after := fun after same => passed ⟨after, same⟩
      rw [List.cons_append, runAll_failed rfl failing, runAll_failed rfl failing]
      cases ended : runner.execute name args before with
      | error failure after => rfl
      | ok code after =>
        have nonzero : code ≠ 0 := by
          rintro rfl
          exact failing after ended
        dsimp only
        rw [if_neg nonzero]

-- The calls of a chain and its end are those of its course, which there is no other of. Two
-- chains in a row are one, unless the first does not end with zero.
theorem run_course (runner : Runner σ) (args : List Text) :
    (∀ before names, names ≠ [] → ∀ events result,
      runner.logged.run names args (before, []) = withLog events result ↔ Course runner args before names events result) ∧
    (∀ names state, withoutLog (runner.logged.run names args state) = runner.run names args state.1) ∧
    ∀ xs ys, xs ≠ [] → ys ≠ [] → ∀ before, runner.run (xs ++ ys) args before =
      match runner.run xs args before with
      | .ok code after => if code = 0 then runner.run ys args after else .ok code after
      | .error failure after => .error failure after := by
  refine ⟨?_, ?_, ?_⟩
  · intro before names some_ events result
    rw [run_names some_]
    constructor
    · intro ran
      obtain ⟨others, last, course⟩ := course_exists runner args before names
      obtain ⟨rfl, rfl⟩ := withLog_inj (course.log.symm.trans ran)
      exact course
    · exact Course.log
  · intro names state
    by_cases none_ : names = []
    · subst none_
      rfl
    · rw [run_names none_, run_names none_]
      exact runAll_forgets names state
  · intro xs ys someXs someYs before
    rw [run_names someXs, run_names someYs, run_names (List.append_ne_nil_of_left_ne_nil someXs ys)]
    exact runAll_append xs ys before

-- Two actions, of which the second fails and only the first has a use for the classpath.
def lintFails : Runner Unit where
  actions := .ofList [("build".toList, "javac {{deps}} A.java".toList), ("lint".toList, "lint src".toList)]
  provider := some (pure (some [.text "/x/a.jar".toList]))
  platform := .posix "/home/dev".toList
  settings := {}
  executor := fun call => pure (if Text.startsWith "lint".toList call.command then 3 else 0)

def lintCalls : List Event :=
  [.asked, .ran ⟨"javac {{deps}} A.java -v".toList, some [.text "/x/a.jar".toList], .posix "/home/dev".toList, {}⟩,
    .ran ⟨"lint src -v".toList, some [], .posix "/home/dev".toList, {}⟩]

theorem run_course_lint :
    ["build".toList, "lint".toList, "build".toList] ≠ [] ∧
    lintFails.logged.run ["build".toList, "lint".toList, "build".toList] ["-v".toList] ((), []) =
      withLog lintCalls (.ok 3 ()) ∧
    Course lintFails ["-v".toList] () ["build".toList, "lint".toList, "build".toList] lintCalls (.ok 3 ()) := by
  have some_ : ["build".toList, "lint".toList, "build".toList] ≠ [] := by simp
  have ran : lintFails.logged.run ["build".toList, "lint".toList, "build".toList] ["-v".toList] ((), []) =
      withLog lintCalls (.ok 3 ()) := by rfl
  exact ⟨some_, ran, ((run_course lintFails ["-v".toList]).1 () _ some_ _ _).mp ran⟩

end Runner
end PortableActions
