import PortableActions.Proofs.CommandLine.Delivery
import PortableActions.Proofs.CommandLine.MarkedPath
import PortableActions.Proofs.CommandLine.Wrapped
import PortableActions.Proofs.Template.Wrapping
-- A command that was planned, read back word by word. Escaped brackets keep every construct
-- to the argument that it was put around, so the constructs are those arguments.
namespace PortableActions.CommandLine
open PortableActions.Template
open PortableActions.Template.Suggestion (word wrapArgument mentionsDeps Eligible named)

-- A part that is read alone in front of a boundary, and its pieces.
def Reads (part : Text) (ps : List Text.Piece) : Prop :=
  ∀ rest, Boundary rest → ArgsConstruct.pieces (part ++ rest) = ps ++ ArgsConstruct.pieces rest

theorem Reads.whole {part : Text} {ps : List Text.Piece} (reads : Reads part ps) : ArgsConstruct.pieces part = ps := by
  have alone := reads [] trivial
  have nothing : ArgsConstruct.pieces [] = [] := rfl
  rwa [nothing, List.append_nil, List.append_nil] at alone

-- Without an opening, and not in front of the rest of one, text falls into its characters.
theorem pieces_closed {t rest : Text} (closed : ¬ ['@', '['] <:+: t) (apart : rest.head? ≠ some '[') :
    Text.pieces Marker.argsConstruct (t ++ rest) = t.map .plain ++ Text.pieces Marker.argsConstruct rest := by
  induction t with
  | nil => rfl
  | cons c r ih =>
    have unseen : Marker.argsConstruct (c :: (r ++ rest)) = none := by
      by_cases sign : c = '@'
      · subst sign
        cases r with
        | nil =>
          cases rest with
          | nil => rfl
          | cons d behind =>
            have other : d ≠ '[' := by simpa using apart
            simp [Marker.argsConstruct, other]
        | cons d behind =>
          have other : d ≠ '[' := by
            rintro rfl
            exact closed (List.prefix_append ['@', '['] behind).isInfix
          simp [Marker.argsConstruct, other]
      · exact argsConstruct_unlike _ sign
    have later := ih fun inside => closed (List.infix_cons inside)
    rw [List.cons_append, Text.pieces_plain unseen, later]
    rfl

theorem reads_plain {t : Text} (closed : ¬ ['@', '['] <:+: t) : Reads t ((Marker.protect t).map .plain) := by
  intro rest boundary
  have apart : (Marker.protect rest).head? ≠ some '[' := by
    have behind := Marker.boundary_protect boundary
    intro first
    cases shown : Marker.protect rest with
    | nil => simp [shown] at first
    | cons d r =>
      rw [shown] at first behind
      cases first
      rcases behind with same | same | same <;> cases same
  unfold ArgsConstruct.pieces
  rw [Marker.protect_boundary boundary]
  exact pieces_closed (fun inside => closed (Marker.opening_protect inside)) apart

theorem reads_wrapped {b : Text} (mentions : mentionsDeps b = true) : Reads (wrapArgument b) [.hit (Marker.hide b)] := by
  intro rest boundary
  have construct := construct_pieces (Marker.hide_free b) (Marker.protect rest)
  unfold ArgsConstruct.pieces
  rw [Suggestion.protect_wrapped mentions boundary]
  simpa using construct

theorem reads_blank : ∀ rest, ArgsConstruct.pieces (' ' :: rest) = .plain ' ' :: ArgsConstruct.pieces rest := by
  intro rest
  unfold ArgsConstruct.pieces
  rw [Marker.protect_unlike (by decide)]
  exact Text.pieces_plain (argsConstruct_unlike _ (by decide))

-- Inlining goes part by part.

theorem inline_append {a rest : Text} {ps : List Text.Piece} (reads : Reads a ps) (boundary : Boundary rest) :
    ArgsConstruct.inline (a ++ rest) = ArgsConstruct.inline a ++ ArgsConstruct.inline rest := by
  unfold ArgsConstruct.inline
  rw [reads rest boundary, reads.whole, Text.write_append, ArgsConstruct.unprotect_append]

theorem inline_blank (rest : Text) : ArgsConstruct.inline (' ' :: rest) = ' ' :: ArgsConstruct.inline rest := by
  unfold ArgsConstruct.inline
  rw [reads_blank, ← List.singleton_append, Text.write_append, ArgsConstruct.unprotect_append]
  rfl

theorem inline_unwords {parts : List Text} (alone : ∀ part ∈ parts, ∃ ps, Reads part ps) :
    ArgsConstruct.inline (Text.unwords parts) = Text.unwords (parts.map ArgsConstruct.inline) := by
  induction parts with
  | nil => rfl
  | cons part rest ih =>
    obtain ⟨⟨ps, reads⟩, later⟩ := List.forall_mem_cons.mp alone
    cases rest with
    | nil => rfl
    | cons next more =>
      have behind : (next :: more).map ArgsConstruct.inline ≠ [] := by simp
      rw [Text.unwords_cons (by simp), inline_append reads (boundary_blank _), inline_blank, ih later]
      exact (Text.unwords_cons behind).symm

-- So does handing over, in the order of the parts.

section
variable {ε σ : Type} {create : Text → EStateM ε σ Text}

theorem spillPieces_append (ps qs : List Text.Piece) :
    ArgsConstruct.spillPieces create (ps ++ qs) = (do
      let front ← ArgsConstruct.spillPieces create ps
      let back ← ArgsConstruct.spillPieces create qs
      pure (front ++ back)) := by
  induction ps with
  | nil => simp [ArgsConstruct.spillPieces]
  | cons p rest ih => cases p <;> simp [ArgsConstruct.spillPieces, ih]

theorem spillPieces_plain (t : Text) : ArgsConstruct.spillPieces create (t.map .plain) = pure t := by
  induction t with
  | nil => rfl
  | cons c r ih => simp [ArgsConstruct.spillPieces, ih]

theorem spill_append {a rest : Text} {ps : List Text.Piece} (reads : Reads a ps) (boundary : Boundary rest) :
    ArgsConstruct.spill create (a ++ rest) = (do
      let front ← ArgsConstruct.spill create a
      let back ← ArgsConstruct.spill create rest
      pure (front ++ back)) := by
  unfold ArgsConstruct.spill
  rw [reads rest boundary, reads.whole, spillPieces_append]
  simp [ArgsConstruct.unprotect_append]

theorem spill_blank (rest : Text) :
    ArgsConstruct.spill create (' ' :: rest) = (do
      let back ← ArgsConstruct.spill create rest
      pure (' ' :: back)) := by
  have kept : ∀ t, Marker.unprotect (' ' :: t) = ' ' :: Marker.unprotect t := fun t =>
    ArgsConstruct.unprotect_append [' '] t
  unfold ArgsConstruct.spill
  rw [reads_blank]
  simp [ArgsConstruct.spillPieces, kept]

theorem spill_unwords {parts : List Text} (alone : ∀ part ∈ parts, ∃ ps, Reads part ps) :
    ArgsConstruct.spill create (Text.unwords parts) = (do
      let shown ← parts.mapM (ArgsConstruct.spill create)
      pure (Text.unwords shown)) := by
  induction parts with
  | nil => rfl
  | cons part rest ih =>
    obtain ⟨⟨ps, reads⟩, later⟩ := List.forall_mem_cons.mp alone
    cases rest with
    | nil => simp [Text.unwords, Text.join]
    | cons next more =>
      rw [Text.unwords_cons (by simp), spill_append reads (boundary_blank _), spill_blank, ih later]
      simp [Text.unwords, Text.join]

-- A creator whose paths do not show the stand-in.
def Quiet (create : Text → EStateM ε σ Text) : Prop :=
  ∀ content before path after, create content before = .ok path after → Marker.standIn ∉ path

-- How an argument that is rewritten already is delivered: trimmed, through a file, if it mentions
-- the classpath, and as it is if not.
def deliver (create : Text → EStateM ε σ Text) (b : Text) : EStateM ε σ Text :=
  if mentionsDeps b then do
    let path ← create (Text.trim b)
    pure ('@' :: path)
  else pure b

theorem spill_plain {t : Text} (quiet : Marker.standIn ∉ t) (closed : ¬ ['@', '['] <:+: t) :
    ArgsConstruct.spill create t = pure t := by
  unfold ArgsConstruct.spill
  rw [(reads_plain closed).whole, spillPieces_plain, pure_bind, unprotect_protect quiet]

theorem content_hidden {b : Text} (quiet : Marker.standIn ∉ b) : ArgsConstruct.content (Marker.hide b) = Text.trim b := by
  rw [ArgsConstruct.content, Marker.hide_shown quiet]

-- A part that is one construct is its file.
theorem Reads.spill_hit {part held : Text} (reads : Reads part [.hit held]) :
    ArgsConstruct.spill create part = (do
      let path ← create (ArgsConstruct.content held)
      pure (Marker.unprotect ('@' :: path))) := by
  unfold ArgsConstruct.spill
  rw [reads.whole]
  simp [ArgsConstruct.spillPieces]

theorem spill_wrapped (silent : Quiet create) {b : Text} (mentions : mentionsDeps b = true) (quiet : Marker.standIn ∉ b) :
    ArgsConstruct.spill create (wrapArgument b) = (do
      let path ← create (Text.trim b)
      pure ('@' :: path)) := by
  rw [(reads_wrapped mentions).spill_hit, content_hidden quiet]
  funext before
  cases made : create (Text.trim b) before with
  | error failure after => simp [bind, EStateM.bind, made]
  | ok path after =>
    have shown : Marker.standIn ∉ '@' :: path := by
      simp only [List.mem_cons, not_or]
      exact ⟨by decide, silent _ _ _ _ made⟩
    simp [bind, EStateM.bind, made, ArgsConstruct.unprotect_quiet shown]

theorem spill_argument (silent : Quiet create) {b : Text} (quiet : Marker.standIn ∉ b) (closed : ¬ ['@', '['] <:+: b) :
    ArgsConstruct.spill create (wrapArgument b) = deliver create b := by
  unfold deliver
  cases mentions : mentionsDeps b with
  | true => exact spill_wrapped silent mentions quiet
  | false =>
    rw [Suggestion.wrapArgument_other (by simp [mentions])]
    exact spill_plain quiet closed

end

theorem inline_argument {b : Text} (quiet : Marker.standIn ∉ b) (closed : ¬ ['@', '['] <:+: b) :
    ArgsConstruct.inline (wrapArgument b) = if mentionsDeps b then Text.trim b else b := by
  unfold ArgsConstruct.inline
  cases mentions : mentionsDeps b with
  | true =>
    have trimmed : Text.write ArgsConstruct.content [.hit (Marker.hide b)] = Text.trim b := by
      simp [Text.write, Text.Piece.write, content_hidden quiet]
    have silent : Marker.standIn ∉ Text.trim b := fun inside => quiet (ArgsConstruct.mem_trim inside)
    rw [(reads_wrapped mentions).whole, trimmed, ArgsConstruct.unprotect_quiet silent]
    rfl
  | false =>
    rw [Suggestion.wrapArgument_other (by simp [mentions]), (reads_plain closed).whole, Text.write_plain, unprotect_protect quiet]
    rfl

theorem alone_argument {b : Text} (closed : ¬ ['@', '['] <:+: b) : ∃ ps, Reads (wrapArgument b) ps := by
  cases mentions : mentionsDeps b with
  | true => exact ⟨_, reads_wrapped mentions⟩
  | false =>
    rw [Suggestion.wrapArgument_other (by simp [mentions])]
    exact ⟨_, reads_plain closed⟩

theorem mapM_same {m : Type → Type} [Monad m] [LawfulMonad m] {α β : Type} {f g : α → m β} {xs : List α}
    (same : ∀ x ∈ xs, f x = g x) : xs.mapM f = xs.mapM g := by
  induction xs with
  | nil => rfl
  | cons x rest ih =>
    obtain ⟨here, later⟩ := List.forall_mem_cons.mp same
    rw [List.mapM_cons, List.mapM_cons, here, ih later]

-- A word that neither shows the stand-in nor opens a construct.
def Sober (w : Text) : Prop := Marker.standIn ∉ w ∧ ¬ ['@', '['] <:+: w

instance (w : Text) : Decidable (Sober w) := inferInstanceAs (Decidable (_ ∧ _))

theorem sober_word {w : Text} (sober : Sober w) : Sober (word w) := by
  obtain ⟨quiet, closed⟩ := sober
  constructor
  · intro inside
    have count := Suggestion.count_word (c := Marker.standIn) (by decide) w
    rw [List.count_eq_zero.mpr quiet] at count
    exact List.count_eq_zero.mp count inside
  · intro inside
    exact closed (Suggestion.infix_word (by decide) inside)

theorem sober_named {program : Text} (sober : Sober program) : Sober (named program) := by
  obtain ⟨quiet, closed⟩ := sober_word sober
  have inside := Suggestion.named_suffix program
  exact ⟨fun bell => quiet (inside.subset bell), fun opening => closed (opening.trans inside.isInfix)⟩

-- Planning a command of a program that takes args files, and looking for args constructs: without
-- a creator the words are the rewritten ones, those that mention the classpath trimmed, and a
-- creator is called for just these, in their order, with what they are when trimmed.
theorem restores_command {program : Text} {args : List Text} (eligible : Eligible program)
    (sober : ∀ w ∈ program :: args, Sober w) :
    ArgsConstruct.inline (Suggestion.command program args) =
      Text.unwords (named program :: args.map fun w => if mentionsDeps (word w) then Text.trim (word w) else word w) ∧
    ∀ {ε σ : Type} (create : Text → EStateM ε σ Text), Quiet create →
      ArgsConstruct.spill create (Suggestion.command program args) = (do
        let shown ← args.mapM fun w => deliver create (word w)
        pure (Text.unwords (named program :: shown))) := by
  obtain ⟨first, others⟩ := List.forall_mem_cons.mp sober
  obtain ⟨bareQuiet, bareClosed⟩ := sober_named first
  have each : ∀ w ∈ args, Sober (word w) := fun w among => sober_word (others w among)
  have written : Suggestion.command program args = Text.unwords (named program :: args.map (wrapArgument ∘ word)) := by
    have each : Suggestion.shownArgument program = wrapArgument ∘ word := funext fun w => if_pos eligible
    rw [Suggestion.command_words, Suggestion.words_shown, each]
  have alone : ∀ part ∈ named program :: args.map (wrapArgument ∘ word), ∃ ps, Reads part ps := by
    refine List.forall_mem_cons.mpr ⟨⟨_, reads_plain bareClosed⟩, fun part among => ?_⟩
    obtain ⟨w, member, rfl⟩ := List.mem_map.mp among
    exact alone_argument (each w member).2
  constructor
  · have shown : (args.map (wrapArgument ∘ word)).map ArgsConstruct.inline =
        args.map fun w => if mentionsDeps (word w) then Text.trim (word w) else word w := by
      rw [List.map_map]
      apply List.map_congr_left
      intro w among
      exact inline_argument (each w among).1 (each w among).2
    have bare : ArgsConstruct.inline (named program) = named program := by
      unfold ArgsConstruct.inline
      rw [(reads_plain bareClosed).whole, Text.write_plain, unprotect_protect bareQuiet]
    rw [written, inline_unwords alone, List.map_cons, bare, shown]
  · intro ε σ create silent
    have delivered : (args.map (wrapArgument ∘ word)).mapM (ArgsConstruct.spill create) =
        args.mapM fun w => deliver create (word w) := by
      rw [List.mapM_map]
      apply mapM_same
      intro w among
      exact spill_argument silent (each w among).1 (each w among).2
    rw [written, spill_unwords alone, List.mapM_cons, spill_plain bareQuiet bareClosed, delivered]
    simp

-- Brackets and escapes of the template reach the file as they are written.
theorem restores_command_brackets :
    Eligible "javac".toList ∧ (∀ w ∈ "javac".toList :: ["-d]".toList, "a]\x7b]\x7d/b:{{deps}}".toList], Sober w) ∧
      Quiet (recorder fun _ => "/t/0".toList) ∧
      ArgsConstruct.spill (recorder fun _ => "/t/0".toList)
          (Suggestion.command "javac".toList ["-d]".toList, "a]\x7b]\x7d/b:{{deps}}".toList]) [] =
        .ok "javac -d] @/t/0".toList ["\x7b./a]\x7b]\x7d/b:{{deps}}\x7d".toList] ∧
      ArgsConstruct.inline (Suggestion.command "javac".toList ["-d]".toList, "a]\x7b]\x7d/b:{{deps}}".toList]) =
        "javac -d] \x7b./a]\x7b]\x7d/b:{{deps}}\x7d".toList := by
  have eligible : Eligible "javac".toList := by decide +kernel
  have sober : ∀ w ∈ "javac".toList :: ["-d]".toList, "a]\x7b]\x7d/b:{{deps}}".toList], Sober w := by decide +kernel
  have silent : Quiet (recorder fun _ => "/t/0".toList) := by
    intro content before path after made
    cases made
    exact (by decide : Marker.standIn ∉ "/t/0".toList)
  obtain ⟨inlined, spilled⟩ := restores_command eligible sober
  exact ⟨eligible, sober, silent, (congrFun (spilled _ silent) []).trans (by rfl), inlined.trans (by decide +kernel)⟩

end PortableActions.CommandLine
