import FraudPlatform.Framework.Binary64

namespace Framework

/-- The JSON values a program writes from counters, floats and dictionaries. -/
inductive Json (F : Type)
  | int (n : Int)
  | float (x : F)
  | object (members : List (String × Json F))

namespace Json

variable {F : Type} [Binary64 F]

mutual

/-- No `NaN` or `Infinity` token: a JSON encoder that writes these produces text that is
JSON only for finite values. -/
def finite : Json F → Bool
  | .int _ => true
  | .float x => Binary64.isFinite x
  | .object members => membersFinite members

def membersFinite : List (String × Json F) → Bool
  | [] => true
  | (_, value) :: members => value.finite && membersFinite members

end

@[simp] theorem finite_int (n : Int) : finite (.int n : Json F) = true := by rw [finite]

@[simp] theorem finite_float (x : F) : finite (.float x) = Binary64.isFinite x := by rw [finite]

@[simp] theorem finite_object_nil : finite (.object [] : Json F) = true := by
  rw [finite, membersFinite]

@[simp] theorem finite_object_cons (name : String) (value : Json F)
    (members : List (String × Json F)) :
    finite (.object ((name,value) :: members)) = (value.finite && finite (.object members)) := by
  rw [finite, membersFinite, finite]

end Json

end Framework
