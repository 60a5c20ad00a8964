import PortableActions.Proofs.Template.Rewriting
-- Planning what has been planned. A second run finds a marker, or finds text it cannot
-- read, or reads the rewritten tree; in the last case it changes nothing exactly when
-- every command was written in a form that stands.
namespace PortableActions.Template.Suggestion

mutual
-- A lone sign leaves nothing behind. Any other command has to be written with a program,
-- and as words that are not rewritten again.
def Settled : Node → Prop
  | .command program args =>
    words program args = [[]] ∨ ∃ q bs, words program args = q :: bs ∧ q ≠ [] ∧ Fixed q bs
  | .separator _ => True
  | .group body => SettledAll body

def SettledAll : List Node → Prop
  | [] => True
  | node :: rest => Settled node ∧ SettledAll rest
end

mutual
-- Commands that are written as they stand.
def Still : Node → Prop
  | .command program args => Fixed program args
  | .separator _ => True
  | .group body => StillAll body

def StillAll : List Node → Prop
  | [] => True
  | node :: rest => Still node ∧ StillAll rest
end

theorem stillAll_append {one two : List Node} (still : StillAll (one ++ two)) : StillAll one ∧ StillAll two := by
  induction one with
  | nil => exact ⟨trivial, still⟩
  | cons node rest ih =>
    obtain ⟨here, later⟩ := still
    exact ⟨⟨here, (ih later).1⟩, (ih later).2⟩

theorem renderAll_append (one two : List Node) : renderAll (one ++ two) = renderAll one ++ renderAll two := by
  induction one with
  | nil => rfl
  | cons node rest ih => rw [List.cons_append, renderAll, renderAll, ih, List.append_assoc]

theorem renderAll_single (node : Node) : renderAll [node] = render node := by
  rw [renderAll, renderAll, List.append_nil]

theorem words_length (program : Text) (args : List Text) : (words program args).length = args.length + 1 :=
  (words_kept program args).length_eq.symm

-- What is written of a command, by what is left of its program.
theorem rewrite_command {program q : Text} {args bs : List Text} (filled : ∀ b ∈ args, b ≠ [])
    (shown : words program args = q :: bs) :
    rewrite (.command program args) = commandOf (if q = [] then bs else q :: bs) := by
  obtain ⟨first, rest, same, _, visible⟩ := words_filled program filled
  obtain ⟨rfl, rfl⟩ := List.cons.inj (shown.symm.trans same)
  have kept : bs.filter (· ≠ []) = bs := List.filter_eq_self.mpr fun b among => by simpa using visible b among
  rw [rewrite, shown, List.filter_cons, kept]
  split <;> split <;> simp_all

theorem named_args {program : Text} {args : List Text} (named : Named [.command program args]) : ∀ b ∈ args, b ≠ [] :=
  fun b among => named b (by simp [Node.tokensAll, Node.tokens, among])

mutual
theorem render_settled : ∀ {node : Node}, Named [node] → Settled node → renderAll (rewrite node) = render node
  | .command program args, named, settled => by
    rw [render, command_words]
    rcases settled with lone | ⟨q, bs, shown, some_, fixed⟩
    · rw [rewrite_command (named_args named) lone, lone]
      rfl
    · rw [rewrite_command (named_args named) shown, if_neg some_, shown, commandOf, renderAll_single, render,
        command_words, words_fixed.mpr fixed]
  | .separator kind, _, _ => by rw [rewrite, renderAll_single]
  | .group body, named, settled => by
    rw [rewrite, renderAll_single, render, render, renderAll_settled (named_body named) settled]

theorem renderAll_settled : ∀ {nodes : List Node}, Named nodes → SettledAll nodes →
    renderAll (rewriteAll nodes) = renderAll nodes
  | [], _, _ => rfl
  | node :: rest, named, ⟨here, later⟩ => by
    obtain ⟨first, more⟩ := named_cons named
    rw [rewriteAll, renderAll_append, renderAll, render_settled first here, renderAll_settled more later]
end

theorem rewrite_length (node : Node) : (rewrite node).length ≤ 1 := by
  cases node with
  | separator | group => simp [rewrite]
  | command program args =>
    rw [rewrite]
    cases (words program args).filter (· ≠ []) <;> simp [commandOf]

theorem rewriteAll_length (nodes : List Node) : (rewriteAll nodes).length ≤ nodes.length := by
  induction nodes with
  | nil => exact Nat.le_refl 0
  | cons node rest ih =>
    have one := rewrite_length node
    simp only [rewriteAll, List.length_append, List.length_cons]
    omega

mutual
theorem still_of_rewrite : ∀ {node : Node}, rewrite node = [node] → Still node
  | .command program args, same => by
    rw [rewrite] at same
    have left : (words program args).filter (· ≠ []) = program :: args := by
      cases shown : (words program args).filter (· ≠ []) with
      | nil => rw [shown] at same; cases same
      | cons q bs => rw [shown] at same; cases same; rfl
    have whole : (words program args).filter (· ≠ []) = words program args :=
      List.filter_eq_self.mpr (List.length_filter_eq_length_iff.mp (by rw [left, words_length, List.length_cons]))
    exact words_fixed.mp (whole.symm.trans left)
  | .separator _, _ => trivial
  | .group body, same => by
    rw [rewrite] at same
    exact stillAll_of_rewriteAll (by simpa using same)

theorem stillAll_of_rewriteAll : ∀ {nodes : List Node}, rewriteAll nodes = nodes → StillAll nodes
  | [], _ => trivial
  | node :: rest, same => by
    rw [rewriteAll] at same
    have size := congrArg List.length same
    have most := rewriteAll_length rest
    cases shown : rewrite node with
    | nil => simp [shown] at size; omega
    | cons next more =>
      rw [shown, List.cons_append] at same
      obtain ⟨first, later⟩ := List.cons.inj same
      have single := rewrite_length node
      have none_ : more = [] := by
        rw [shown] at single
        exact List.length_eq_zero_iff.mp (by simpa using single)
      rw [none_, List.nil_append] at later
      exact ⟨still_of_rewrite (by rw [shown, first, none_]), stillAll_of_rewriteAll later⟩
end

-- The rewritten tree is written no longer than the first time, and shorter if a command
-- lost its program but not its arguments.
mutual
theorem settled_of_still : ∀ {node : Node}, Named [node] → StillAll (rewrite node) →
    (renderAll (rewrite node)).length ≤ (render node).length ∧
      ((renderAll (rewrite node)).length = (render node).length → Settled node)
  | .separator _, _, _ => ⟨by rw [rewrite, renderAll_single], fun _ => trivial⟩
  | .group body, named, still => by
    rw [rewrite] at still
    obtain ⟨most, exact_⟩ := settledAll_of_still (named_body named) still.1
    rw [rewrite, renderAll_single, render, render]
    refine ⟨by simpa using most, fun same => exact_ (by simpa using same)⟩
  | .command program args, named, still => by
    obtain ⟨q, bs, shown, _, _⟩ := words_filled program (named_args named)
    have left := rewrite_command (named_args named) shown
    -- Where the program was a mere sign, its first argument is the program now.
    by_cases gone : q = []
    · subst gone
      cases bs with
      | nil =>
        rw [left, render, command_words, shown]
        exact ⟨Nat.le_refl _, fun _ => .inl shown⟩
      | cons b rest =>
        rw [if_pos rfl, commandOf] at left
        rw [left] at still
        have fixed : words b rest = b :: rest := words_fixed.mpr still.1
        rw [left, renderAll_single, render, render, command_words, command_words, fixed, shown]
        have longer : (Text.unwords ([] :: b :: rest)).length = (Text.unwords (b :: rest)).length + 1 := by
          simp [Text.unwords, Text.join]
        exact ⟨by omega, fun same => by omega⟩
    · rw [if_neg gone, commandOf] at left
      rw [left] at still
      have fixed : words q bs = q :: bs := words_fixed.mpr still.1
      rw [left, renderAll_single, render, render, command_words, command_words, fixed, shown]
      exact ⟨Nat.le_refl _, fun _ => .inr ⟨q, bs, shown, gone, still.1⟩⟩

theorem settledAll_of_still : ∀ {nodes : List Node}, Named nodes → StillAll (rewriteAll nodes) →
    (renderAll (rewriteAll nodes)).length ≤ (renderAll nodes).length ∧
      ((renderAll (rewriteAll nodes)).length = (renderAll nodes).length → SettledAll nodes)
  | [], _, _ => ⟨Nat.le_refl _, fun _ => trivial⟩
  | node :: rest, named, still => by
    obtain ⟨first, more⟩ := named_cons named
    obtain ⟨here, later⟩ := stillAll_append still
    obtain ⟨most, exact_⟩ := settled_of_still first here
    obtain ⟨mostLater, exactLater⟩ := settledAll_of_still more later
    rw [rewriteAll, renderAll_append, renderAll, List.length_append, List.length_append]
    exact ⟨by omega, fun same => ⟨exact_ (by omega), exactLater (by omega)⟩⟩
end

theorem renderAll_stable {template : Text} {nodes : List Node} (parsed : parse? template = some nodes)
    (unused : Marker.isUsedIn (renderAll nodes) = false) (solid : ¬ HollowAll nodes)
    (some_ : nodes ≠ [.command ['@'] []]) :
    renderAll (rewriteAll nodes) = renderAll nodes ↔ SettledAll nodes := by
  have named : Named nodes := fun w among =>
    readable_filled (readable_of_lexes (Token.lexes_read template)) ((parse?_exact.mp parsed).1 ▸ among)
  constructor
  · intro same
    have again : parse? (renderAll nodes) = some (rewriteAll nodes) :=
      (parse?_rendered parsed unused).mpr ⟨solid, some_, rfl⟩
    have twice : parse? (renderAll (rewriteAll nodes)) = some (rewriteAll nodes) := same.symm ▸ again
    obtain ⟨_, _, fixed⟩ := (parse?_rendered again (same.symm ▸ unused)).mp twice
    exact (settledAll_of_still named (stillAll_of_rewriteAll fixed.symm)).2 (congrArg List.length same)
  · exact renderAll_settled named

theorem plan_marked {template : Text} (marked : Marker.isUsedIn template = true) : plan template = template := by
  simp [plan, marked]

theorem plan_parsed {template : Text} {nodes : List Node} (unmarked : Marker.isUsedIn template = false)
    (parsed : parse? template = some nodes) : plan template = renderAll nodes := by
  simp [plan, unmarked, parsed]

theorem plan_unread {template : Text} (unread : parse? template = none) : plan template = template := by
  simp [plan, unread]

-- When a second run changes nothing.
theorem plan_again (template : Text) : plan (plan template) = plan template ↔
    Marker.isUsedIn template = true ∨ parse? template = none ∨ Marker.isUsedIn (plan template) = true ∨
      ∃ nodes, parse? template = some nodes ∧ (HollowAll nodes ∨ SettledAll nodes) := by
  cases marked : Marker.isUsedIn template with
  | true => simp [plan_marked marked]
  | false =>
    cases parsed : parse? template with
    | none => simp [plan_unread parsed]
    | some nodes =>
      rw [plan_parsed marked parsed]
      cases unused : Marker.isUsedIn (renderAll nodes) with
      | true => simp [plan_marked unused]
      | false =>
        simp only [Bool.false_eq_true, reduceCtorEq, Option.some.injEq, exists_eq_left', false_or]
        cases reread : parse? (renderAll nodes) with
        | some read =>
          obtain ⟨solid, some_, rfl⟩ := (parse?_rendered parsed unused).mp reread
          rw [plan_parsed unused reread]
          simpa [solid] using renderAll_stable parsed unused solid some_
        | none =>
          simp only [plan_unread reread, true_iff]
          by_cases hollow : HollowAll nodes
          · exact .inl hollow
          by_cases lone : nodes = [.command ['@'] []]
          · exact .inr (lone ▸ ⟨.inl (by decide), trivial⟩)
          · have again : parse? (renderAll nodes) = some (rewriteAll nodes) :=
              (parse?_rendered parsed unused).mpr ⟨hollow, lone, rfl⟩
            rw [reread] at again
            cases again

-- Only the first of two leading signs is dropped by the first run.
theorem plan_again_two_signs : plan (plan "@@foo".toList) ≠ plan "@@foo".toList := by decide +kernel

end PortableActions.Template.Suggestion
