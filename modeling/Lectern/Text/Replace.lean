import Lectern.Text.Basic

/-!
# Leftmost replacement

A replacement step looks at the start of a text and either declines or gives the replacement and
what follows the replaced part. `Text.replace` applies a step from left to right: replaced parts
do not overlap, and a replacement is not looked at again.
-/

namespace Lectern.Text

/-- The text after replacement, where the first `skip` characters belong to a part that is
replaced already. -/
def replaceFrom (step : Text → Option (Text × Text)) : Nat → Text → Text
  | _, [] => []
  | skip + 1, _ :: rest => replaceFrom step skip rest
  | 0, c :: rest =>
    match step (c :: rest) with
    | some (image, after) => image ++ replaceFrom step (rest.length - after.length) rest
    | none => c :: replaceFrom step 0 rest

/-- Replaces, from left to right, every part that `step` accepts. -/
def replace (step : Text → Option (Text × Text)) (text : Text) : Text := replaceFrom step 0 text

variable {step : Text → Option (Text × Text)}

@[simp] theorem replace_nil : replace step [] = [] := rfl

theorem replaceFrom_length (replaced rest : Text) :
    replaceFrom step replaced.length (replaced ++ rest) = replace step rest := by
  induction replaced with
  | nil => rfl
  | cons c replaced ih => simpa [replaceFrom] using ih

/-- Where the step declines, the character stays and replacement goes on behind it. -/
theorem replace_cons_of_none {c : Char} {rest : Text} (declined : step (c :: rest) = none) :
    replace step (c :: rest) = c :: replace step rest := by
  simp [replace, replaceFrom, declined]

/-- Where the step accepts, replacement goes on behind the replaced part. -/
theorem replace_cons_of_some {c : Char} {replaced image after : Text}
    (accepted : step (c :: (replaced ++ after)) = some (image, after)) :
    replace step (c :: (replaced ++ after)) = image ++ replace step after := by
  simpa [replace, replaceFrom, accepted] using replaceFrom_length replaced after

end Lectern.Text
