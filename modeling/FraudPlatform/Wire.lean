import FraudPlatform.Framework.JsonWire
import FraudPlatform.Http

namespace FraudPlatform

open Framework Ieee JsonStruct JsonWire

structure HttpResponse where
  statusCode : Nat
  body : List Char

/-- A struct by `json.NewEncoder`, or `http.Error`: both end the text with a new line. -/
def Reply.written {α : Type} (formatFloat : Datum → List Char) (members : α → List (String × Data)) :
    Reply α → HttpResponse
  | .ok body => ⟨200,(goWriter formatFloat).object (members body) ++ ['\n']⟩
  | .error status text => ⟨status,text.toList ++ ['\n']⟩

/-- Whether an integer is an `int64`. -/
def Word (n : Int) : Prop := -2 ^ 63 ≤ n ∧ n < 2 ^ 63

instance (n : Int) : Decidable (Word n) := inferInstanceAs (Decidable (_ ∧ _))

theorem parsed_of_word {n : Int} (word : Word n) : parseInt64 (JsonDump.int n) = some n := by
  rw [parseInt64_int]
  exact if_pos word

end FraudPlatform
