import Inlay.Hint.Basic
import Inlay.Ty.Equality
import Inlay.Ty.Writer

/-!
# Drafts

The text of a hint while it is being written. Plain text joins the plain text before it, so that a
draft never holds two plain segments next to each other or a plain segment without text; a link is
always a segment of its own.

A draft is a destination for types (`Writer`), with class names as links. `compose` writes a list of
pieces, texts and types, and gives the segments.
-/

namespace Inlay

/-- The segments written so far, the last one first. -/
structure Draft where
  reversed : List Segment
deriving DecidableEq, Repr

namespace Draft

/-- The draft with nothing written. -/
def empty : Draft := ⟨[]⟩

/-- The segments in the order in which they were written. -/
def segments (d : Draft) : List Segment := d.reversed.reverse

/-- Appends plain text to the last segment if that is plain too, else as a new segment. Empty text
leaves the draft as it is. -/
def text (s : String) (d : Draft) : Draft :=
  if s = "" then d
  else
    match d.reversed with
    | ⟨last, none⟩ :: rest => ⟨.plain (last ++ s) :: rest⟩
    | segments => ⟨.plain s :: segments⟩

/-- Appends a link. -/
def link (s target : String) (d : Draft) : Draft := ⟨.link s target :: d.reversed⟩

/-- Class names become links to their qualified names. -/
instance : Writer Draft where
  text := Draft.text
  className name shown := Draft.link shown name.qualified

@[simp] theorem segments_empty : empty.segments = [] := rfl

@[simp] theorem segments_link (s target : String) (d : Draft) :
    (d.link s target).segments = d.segments ++ [.link s target] := by
  simp [link, segments]

@[simp] theorem text_empty (d : Draft) : d.text "" = d := rfl

/-- Appends a type. -/
def type (t : Ty) (form : NameForm) (d : Draft) : Draft := t.write form d

end Draft

/-- A piece of hint text. -/
inductive Piece where
  | text (s : String)
  | type (t : Ty) (form : NameForm)
deriving DecidableEq

namespace Piece

/-- Appends the piece to a draft. -/
def write : Piece → Draft → Draft
  | .text s => Draft.text s
  | .type t form => Draft.type t form

/-- The segments of a sequence of pieces. -/
def compose (pieces : List Piece) : List Segment :=
  (pieces.foldl (fun d p => p.write d) Draft.empty).segments

end Piece

end Inlay
