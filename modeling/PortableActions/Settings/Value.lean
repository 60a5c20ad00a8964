import PortableActions.Text
-- Loosely typed values, as a configuration file delivers them. A number is a whole
-- number of decimal places.
namespace PortableActions

inductive Value where
  | null
  | flag (b : Bool)
  | number (digits : Int) (places : Nat)
  | text (t : Text)
  | list (items : List Value)
  | record (fields : List (Text × Value))
  deriving Inhabited

namespace Value

def field? (fields : List (Text × Value)) (name : Text) : Option Value :=
  (fields.find? fun entry => entry.1 = name).map Prod.snd

-- The number, if it has no fraction.
def whole? : Value → Option Int
  | number digits places =>
    let unit : Int := Int.ofNat (Nat.pow 10 places)
    if digits % unit = 0 then some (digits / unit) else none
  | _ => none

end Value
end PortableActions
