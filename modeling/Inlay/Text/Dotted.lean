/-!
# Dotted names

A dotted name is a sequence of segments with dots between them. `segments` cuts a name at its dots
and `join` puts the dots back; a name without a dot is one segment, and dots at an end or next to
each other delimit empty segments.

* `join_segments`: joining the segments of a name gives the name back.
* `segments_ne_nil`: there is always at least one segment.
-/

namespace Inlay.Text.Dotted

/-- The segments of a name: what stands between its dots, in order. -/
def segments : List Char → List (List Char)
  | [] => [[]]
  | c :: cs => if c = '.' then [] :: segments cs else (segments cs).modifyHead (c :: ·)

/-- The name with the given segments. -/
def join : List (List Char) → List Char
  | [] => []
  | [s] => s
  | s :: t :: rest => s ++ '.' :: join (t :: rest)

@[simp] theorem segments_nil : segments [] = [[]] := rfl

@[simp] theorem segments_dot (cs : List Char) : segments ('.' :: cs) = [] :: segments cs := by
  simp [segments]

theorem segments_cons_of_ne {c : Char} (h : c ≠ '.') (cs : List Char) :
    segments (c :: cs) = (segments cs).modifyHead (c :: ·) := by
  simp [segments, h]

@[simp] theorem join_nil : join [] = [] := rfl

@[simp] theorem join_singleton (s : List Char) : join [s] = s := rfl

theorem join_cons {segs : List (List Char)} (h : segs ≠ []) (s : List Char) :
    join (s :: segs) = s ++ '.' :: join segs := by
  cases segs with
  | nil => exact absurd rfl h
  | cons t rest => rfl

/-- A name has at least one segment. -/
theorem segments_ne_nil (cs : List Char) : segments cs ≠ [] := by
  induction cs with
  | nil => simp
  | cons c cs ih =>
    by_cases h : c = '.'
    · simp [h]
    · rw [segments_cons_of_ne h]
      cases hs : segments cs with
      | nil => exact absurd hs ih
      | cons s rest => simp

/-- A character put in front of the first segment stands in front of the name. -/
theorem join_modifyHead {segs : List (List Char)} (h : segs ≠ []) (c : Char) :
    join (segs.modifyHead (c :: ·)) = c :: join segs := by
  match segs, h with
  | [s], _ => rfl
  | s :: t :: rest, _ => simp [join]

/-- Cutting a name at its dots loses nothing. -/
theorem join_segments (cs : List Char) : join (segments cs) = cs := by
  induction cs with
  | nil => rfl
  | cons c cs ih =>
    by_cases h : c = '.'
    · subst h
      rw [segments_dot, join_cons (segments_ne_nil cs), ih, List.nil_append]
    · rw [segments_cons_of_ne h, join_modifyHead (segments_ne_nil cs), ih]

end Inlay.Text.Dotted
