import PortableActions.Template.Token
-- A template as a tree: commands of a program and its arguments, separators, and groups.
-- Nothing here asks that a sequence is non-empty or that two commands do not stand side
-- by side; trees that were read from text keep both.
namespace PortableActions.Template

inductive Node where
  | command (program : Text) (args : List Text)
  | separator (kind : Separator)
  | group (body : List Node)

namespace Node

mutual
-- Elements are printed with single blanks between them, groups without blanks inside.
def print : Node → Text
  | command program args => Text.unwords (program :: args)
  | separator kind => kind.text
  | group body => ['('] ++ printAll body ++ [')']

def printAll : List Node → Text
  | [] => []
  | node :: rest =>
    match rest with
    | [] => print node
    | _ :: _ => print node ++ [' '] ++ printAll rest
end

mutual
-- The tokens of a tree in order.
def tokens : Node → List Token
  | command program args => .word program :: args.map .word
  | separator kind => [.separator kind]
  | group body => [.opening] ++ tokensAll body ++ [.closing]

def tokensAll : List Node → List Token
  | [] => []
  | node :: rest => tokens node ++ tokensAll rest
end

mutual
def same : Node → Node → Bool
  | command p as, command q bs => p == q && as == bs
  | separator k, separator l => k == l
  | group b, group c => sameAll b c
  | _, _ => false

def sameAll : List Node → List Node → Bool
  | [], [] => true
  | x :: xs, y :: ys => same x y && sameAll xs ys
  | _, _ => false
end

mutual
theorem same_iff : ∀ x y : Node, same x y = true ↔ x = y
  | command p as, y => by cases y <;> simp [same]
  | separator k, y => by cases y <;> simp [same]
  | group b, y => by
    cases y with
    | group c => simp [same, sameAll_iff b c]
    | command => simp [same]
    | separator => simp [same]

theorem sameAll_iff : ∀ xs ys : List Node, sameAll xs ys = true ↔ xs = ys
  | [], ys => by cases ys <;> simp [sameAll]
  | x :: xs, ys => by
    cases ys with
    | nil => simp [sameAll]
    | cons y ys => simp [sameAll, same_iff x y, sameAll_iff xs ys]
end

instance : DecidableEq Node := fun x y => decidable_of_iff _ (same_iff x y)

end Node
end PortableActions.Template
