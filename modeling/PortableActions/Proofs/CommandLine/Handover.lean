import PortableActions.CommandLine.ArgsConstruct
import PortableActions.Proofs.Text.Replacement
-- What args constructs hold is handed over piece by piece, in order, until the first
-- failure. The text between the constructs is the same whether what they hold is inlined
-- or handed over.
namespace PortableActions

-- The state that is left, whether or not the call has failed.
def stateAfter {ε σ α : Type} : EStateM.Result ε σ α → σ
  | .ok _ after => after
  | .error _ after => after

theorem stateAfter_map {ε σ α β : Type} (call : EStateM ε σ α) (view : α → β) (before : σ) :
    stateAfter ((do let answer ← call; pure (view answer)) before) = stateAfter (call before) := by
  cases result : call before <;> simp [bind, EStateM.bind, result, pure, EStateM.pure, stateAfter]

-- Calls that all succeed, one after the other, each from the state the one before it left.
inductive Calls {ε σ α β : Type} (call : α → EStateM ε σ β) : σ → List α → List β → σ → Prop where
  | nil : Calls call before [] [] before
  | cons : call argument before = .ok answer middle → Calls call middle arguments answers after →
      Calls call before (argument :: arguments) (answer :: answers) after

-- The first call that fails, with what the calls before it have given.
def Stops {ε σ α β : Type} (call : α → EStateM ε σ β) (before : σ) (earlier : List α) (argument : α)
    (answers : List β) (failure : ε) (after : σ) : Prop :=
  ∃ middle, Calls call before earlier answers middle ∧ call argument middle = .error failure after

theorem calls_or_stops {ε σ α β : Type} (call : α → EStateM ε σ β) (arguments : List α) (before : σ) :
    (∃ answers after, Calls call before arguments answers after) ∨
    ∃ earlier argument later answers failure after,
      arguments = earlier ++ argument :: later ∧ Stops call before earlier argument answers failure after := by
  induction arguments generalizing before with
  | nil => exact .inl ⟨[], before, .nil⟩
  | cons argument rest ih =>
    cases called : call argument before with
    | error failure after =>
      exact .inr ⟨[], argument, rest, [], failure, after, rfl, before, .nil, called⟩
    | ok answer middle =>
      rcases ih middle with ⟨answers, after, calls⟩ | ⟨earlier, stopped, later, answers, failure, after, split, last⟩
      · exact .inl ⟨answer :: answers, after, .cons called calls⟩
      · obtain ⟨final, calls, failed⟩ := last
        exact .inr ⟨argument :: earlier, stopped, later, answer :: answers, failure, after,
          by rw [split, List.cons_append], final, .cons called calls, failed⟩

theorem Calls.length {ε σ α β : Type} {call : α → EStateM ε σ β} {before after : σ} {arguments : List α}
    {answers : List β} (calls : Calls call before arguments answers after) : answers.length = arguments.length := by
  induction calls with
  | nil => rfl
  | cons _ _ ih => simp [ih]

-- A call whose answer is only looked at differently afterwards.
theorem Calls.of_map {ε σ α β γ : Type} {call : α → EStateM ε σ β} {view : β → γ} {before after : σ}
    {arguments : List α} {answers : List β} (calls : Calls call before arguments answers after) :
    Calls (fun argument => do let answer ← call argument; pure (view answer)) before arguments
      (answers.map view) after := by
  induction calls with
  | nil => exact .nil
  | cons called _ ih => exact .cons (by simp [bind, EStateM.bind, called, pure, EStateM.pure]) ih

namespace CommandLine.ArgsConstruct
open PortableActions.Template

-- The text before, between and after the occurrences.
def gapsOf : List Text.Piece → List Text
  | [] => [[]]
  | .plain c :: rest => match gapsOf rest with
    | [] => [[c]]
    | gap :: gaps => (c :: gap) :: gaps
  | .hit _ :: rest => [] :: gapsOf rest

-- Gaps and fillings in turn; there is one gap more.
def interleave : List Text → List Text → Text
  | [], _ => []
  | gap :: _, [] => gap
  | gap :: gaps, filling :: fillings => gap ++ filling ++ interleave gaps fillings

-- The text of a command line around its args constructs.
def gaps (command : Text) : List Text := (gapsOf (pieces command)).map Marker.unprotect

theorem gapsOf_length (ps : List Text.Piece) : (gapsOf ps).length = (contentsOf ps).length + 1 := by
  induction ps with
  | nil => rfl
  | cons p rest ih =>
    cases p with
    | plain c => cases found : gapsOf rest <;> simp_all [gapsOf, contentsOf]
    | hit held => simp [gapsOf, contentsOf, ih]

theorem gaps_length (command : Text) : (gaps command).length = (contents command).length + 1 := by
  simp [gaps, contents, gapsOf_length]

theorem interleave_plain (c : Char) (ps : List Text.Piece) (fillings : List Text) :
    interleave (gapsOf (.plain c :: ps)) fillings = c :: interleave (gapsOf ps) fillings := by
  obtain ⟨gap, rest, found⟩ := List.exists_cons_of_length_pos (l := gapsOf ps) (by simp [gapsOf_length])
  cases fillings <;> simp [gapsOf, found, interleave]

theorem interleave_hit (held filling : Text) (ps : List Text.Piece) (fillings : List Text) :
    interleave (gapsOf (.hit held :: ps)) (filling :: fillings) = filling ++ interleave (gapsOf ps) fillings := by
  simp [gapsOf, interleave]

theorem write_content (ps : List Text.Piece) :
    Text.write content ps = interleave (gapsOf ps) (contentsOf ps) := by
  induction ps with
  | nil => rfl
  | cons p rest ih =>
    cases p with
    | plain c =>
      rw [interleave_plain, contentsOf, ← ih]
      simp [Text.write, Text.Piece.write]
    | hit held =>
      rw [contentsOf, interleave_hit, ← ih]
      simp [Text.write, Text.Piece.write]

theorem spillPieces_calls {ε σ : Type} {create : Text → EStateM ε σ Text} {before after : σ}
    {answers : List Text} (ps : List Text.Piece) (calls : Calls create before (contentsOf ps) answers after) :
    spillPieces create ps before = .ok (interleave (gapsOf ps) (answers.map ('@' :: ·))) after := by
  induction ps generalizing before answers with
  | nil => cases calls; rfl
  | cons p rest ih =>
    cases p with
    | plain c =>
      rw [interleave_plain]
      simp [spillPieces, bind, EStateM.bind, ih calls, pure, EStateM.pure]
    | hit held =>
      cases calls with
      | cons called calls =>
        rw [List.map_cons, interleave_hit]
        simp [spillPieces, bind, EStateM.bind, called, ih calls, pure, EStateM.pure]

theorem spillPieces_stops {ε σ : Type} {create : Text → EStateM ε σ Text} {before after : σ} {failure : ε}
    {earlier later answers : List Text} {argument : Text} (ps : List Text.Piece)
    (split : contentsOf ps = earlier ++ argument :: later)
    (stops : Stops create before earlier argument answers failure after) :
    spillPieces create ps before = .error failure after := by
  induction ps generalizing before earlier answers with
  | nil => simp [contentsOf] at split
  | cons p rest ih =>
    cases p with
    | plain c => simp [spillPieces, bind, EStateM.bind, ih split stops]
    | hit held =>
      obtain ⟨middle, calls, failed⟩ := stops
      rw [contentsOf] at split
      cases calls with
      | nil =>
        obtain ⟨rfl, _⟩ := List.cons.inj split
        simp [spillPieces, bind, EStateM.bind, failed]
      | cons called calls =>
        obtain ⟨rfl, rest⟩ := List.cons.inj split
        simp [spillPieces, bind, EStateM.bind, called, ih rest ⟨middle, calls, failed⟩]

-- What every call does to the state, all of them together do, also when one of them fails.
theorem spillPieces_keeps {ε σ : Type} {create : Text → EStateM ε σ Text} (kept : σ → σ → Prop)
    (refl : ∀ state, kept state state) (trans : ∀ {one two three}, kept one two → kept two three → kept one three)
    (step : ∀ content state, kept state (stateAfter (create content state))) (ps : List Text.Piece) (before : σ) :
    kept before (stateAfter (spillPieces create ps before)) := by
  induction ps generalizing before with
  | nil => exact refl before
  | cons p rest ih =>
    cases p with
    | plain c =>
      rw [spillPieces, stateAfter_map]
      exact ih before
    | hit held =>
      have first := step (content held) before
      rw [spillPieces]
      cases called : create (content held) before with
      | error failure middle =>
        rw [called] at first
        simpa [bind, EStateM.bind, called, stateAfter] using first
      | ok path middle =>
        rw [called] at first
        have later := stateAfter_map (spillPieces create rest) (fun after => '@' :: path ++ after) middle
        simp only [bind, EStateM.bind, called] at later ⊢
        rw [later]
        exact trans first (ih middle)

theorem unprotect_append (a b : Text) : Marker.unprotect (a ++ b) = Marker.unprotect a ++ Marker.unprotect b := by
  simp [Marker.unprotect, Text.replaceAll_char]

theorem unprotect_quiet {t : Text} (quiet : Marker.standIn ∉ t) : Marker.unprotect t = t := by
  rw [Marker.unprotect, Text.replaceAll_char]
  induction t with
  | nil => rfl
  | cons c r ih =>
    simp only [List.mem_cons, not_or] at quiet
    simp [Ne.symm quiet.1, ih quiet.2]

theorem unprotect_interleave (gaps fillings : List Text) (quiet : ∀ filling ∈ fillings, Marker.standIn ∉ filling) :
    Marker.unprotect (interleave gaps fillings) = interleave (gaps.map Marker.unprotect) fillings := by
  induction gaps generalizing fillings with
  | nil => rfl
  | cons gap rest ih =>
    cases fillings with
    | nil => rfl
    | cons filling fillings =>
      have front := unprotect_quiet (quiet filling (by simp))
      have back := ih fillings fun f member => quiet f (by simp [member])
      simp [interleave, unprotect_append, front, back]

theorem mem_trim {c : Char} {t : Text} (member : c ∈ Text.trim t) : c ∈ t := by
  simp only [Text.trim, Text.trimEnd, Text.trimStart, List.mem_reverse] at member
  have inside := (List.dropWhile_sublist _).subset member
  exact (List.dropWhile_sublist _).subset (List.mem_reverse.mp inside)

theorem content_quiet (held : Text) : Marker.standIn ∉ content held := by
  intro member
  have inside := mem_trim member
  rw [Text.replaceAll_char, List.mem_flatMap] at inside
  obtain ⟨c, _, shown⟩ := inside
  by_cases same : c = Marker.standIn
  · simp [same, Marker.standIn] at shown
  · rw [if_neg same] at shown
    exact same (List.mem_singleton.mp shown).symm

theorem contentsOf_quiet (ps : List Text.Piece) : ∀ filling ∈ contentsOf ps, Marker.standIn ∉ filling := by
  induction ps with
  | nil => simp [contentsOf]
  | cons p rest ih =>
    cases p with
    | plain c => exact ih
    | hit held =>
      intro filling member
      rcases List.mem_cons.mp member with rfl | old
      · exact content_quiet held
      · exact ih filling old

theorem inline_gaps (command : Text) : inline command = interleave (gaps command) (contents command) := by
  rw [inline, write_content, unprotect_interleave _ _ (contentsOf_quiet _), gaps, contents]

theorem spill_calls {ε σ : Type} {create : Text → EStateM ε σ Text} {command : Text} {before after : σ}
    {answers : List Text} (calls : Calls create before (contents command) answers after)
    (quiet : ∀ answer ∈ answers, Marker.standIn ∉ answer) :
    spill create command before = .ok (interleave (gaps command) (answers.map ('@' :: ·))) after := by
  have shown : ∀ filling ∈ answers.map ('@' :: ·), Marker.standIn ∉ filling := by
    intro filling member
    obtain ⟨answer, old, rfl⟩ := List.mem_map.mp member
    simpa [Marker.standIn] using quiet answer old
  have written := spillPieces_calls (pieces command) calls
  simp [spill, bind, EStateM.bind, written, pure, EStateM.pure, unprotect_interleave _ _ shown, gaps]

theorem spill_stops {ε σ : Type} {create : Text → EStateM ε σ Text} {command argument : Text} {before after : σ}
    {failure : ε} {earlier later answers : List Text} (split : contents command = earlier ++ argument :: later)
    (stops : Stops create before earlier argument answers failure after) :
    spill create command before = .error failure after := by
  simp [spill, bind, EStateM.bind, spillPieces_stops (pieces command) split stops]

-- A command line comes out of a spill only if every creation has succeeded.
theorem spill_ok {ε σ : Type} {create : Text → EStateM ε σ Text} {t line : Text} {before after : σ}
    (ran : spill create t before = .ok line after) : ∃ answers, Calls create before (contents t) answers after := by
  rcases calls_or_stops create (contents t) before with
    ⟨answers, final, calls⟩ | ⟨earlier, content, later, answers, failure, final, split, stops⟩
  · have written := spillPieces_calls (pieces t) calls
    simp only [spill, bind, EStateM.bind, written, pure, EStateM.pure] at ran
    injection ran with _ same
    exact ⟨answers, same ▸ calls⟩
  · rw [spill_stops split stops] at ran
    cases ran

end CommandLine.ArgsConstruct
end PortableActions
