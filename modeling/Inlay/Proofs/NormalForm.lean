import Inlay.Proofs.Walk
import Mathlib.Data.List.Chain

/-!
# The normal form of what is written

A draft is written to by plain texts and links. It keeps them in normal form: neighbouring plain
texts are one segment, and there is no plain segment without text.

Taken apart, segments are a sequence of characters and links (`Segment.glyphs`). Of all lists of
segments with the same glyphs one is in normal form (`Segment.Normal.eq_of_glyphs`), and
`Segment.normalize` computes it from any other.

* `Draft.normal_add`, `Draft.glyphs_add`: what one write does to a draft (the step).
* `Draft.segments_foldl_add`: a draft holds the normal form of what was written to it (the run).
* `Piece.compose_eq_normalize`: the same for the pieces of a hint.
-/

namespace Inlay

/-- A part of a text that cannot be taken apart further: a character of plain text, or a link. -/
inductive Glyph where
  | char (c : Char)
  | link (text target : String)

def Glyph.isChar : Glyph → Bool
  | .char _ => true
  | .link .. => false

namespace Segment

/-! ## Normal forms -/

def glyphs (s : Segment) : List Glyph :=
  match s.target with
  | none => s.text.toList.map .char
  | some target => [.link s.text target]

/-- Plain segments have text, and no two of them are neighbours. -/
structure Normal (segs : List Segment) : Prop where
  nonempty : ∀ s ∈ segs, s.target = none → s.text ≠ ""
  apart : segs.IsChain fun s t => s.target = none → t.target ≠ none

/-- Puts plain text in front of segments in normal form. -/
def prepend (s : String) (segs : List Segment) : List Segment :=
  if s = "" then segs
  else
    match segs with
    | ⟨t, none⟩ :: rest => .plain (s ++ t) :: rest
    | segs => .plain s :: segs

/-- Joins neighbouring plain texts and leaves out those that are empty. -/
def normalize : List Segment → List Segment
  | [] => []
  | s :: rest =>
    match s.target with
    | none => prepend s.text (normalize rest)
    | some _ => s :: normalize rest

@[simp] theorem glyphs_plain (s : String) : (plain s).glyphs = s.toList.map .char := rfl

@[simp] theorem glyphs_link (s target : String) : (link s target).glyphs = [.link s target] := rfl

@[simp] theorem normalize_plain (s : String) (rest : List Segment) :
    normalize (.plain s :: rest) = prepend s (normalize rest) := rfl

@[simp] theorem normalize_link (s target : String) (rest : List Segment) :
    normalize (.link s target :: rest) = .link s target :: normalize rest := rfl

/-- A segment is plain text or a link. -/
@[elab_as_elim]
theorem byKind {motive : Segment → Prop} (plain : ∀ s, motive (.plain s))
    (link : ∀ s target, motive (.link s target)) (s : Segment) : motive s := by
  obtain ⟨text, _ | target⟩ := s
  · exact plain text
  · exact link text target

theorem normal_nil : Normal [] := ⟨List.forall_mem_nil _, .nil⟩

theorem normal_plain_cons {s : String} {segs : List Segment} : Normal (.plain s :: segs) ↔
    s ≠ "" ∧ (∀ t ∈ segs.head?, t.target ≠ none) ∧ Normal segs := by
  constructor
  · rintro ⟨hne, hapart⟩
    rw [List.forall_mem_cons] at hne
    rw [List.isChain_cons] at hapart
    exact ⟨hne.1 rfl, fun t ht => hapart.1 t ht rfl, hne.2, hapart.2⟩
  · rintro ⟨hs, hhead, hne, hapart⟩
    refine ⟨List.forall_mem_cons.2 ⟨fun _ => hs, hne⟩, ?_⟩
    exact List.isChain_cons.2 ⟨fun t ht _ => hhead t ht, hapart⟩

theorem normal_link_cons {s target : String} {segs : List Segment} :
    Normal (.link s target :: segs) ↔ Normal segs := by
  constructor
  · rintro ⟨hne, hapart⟩
    exact ⟨(List.forall_mem_cons.1 hne).2, (List.isChain_cons.1 hapart).2⟩
  · rintro ⟨hne, hapart⟩
    refine ⟨List.forall_mem_cons.2 ⟨nofun, hne⟩, List.isChain_cons.2 ⟨nofun, hapart⟩⟩

theorem Normal.replace_plain {s t : String} {segs : List Segment} (h : Normal (.plain s :: segs))
    (ht : t ≠ "") : Normal (.plain t :: segs) := by
  obtain ⟨-, hhead, hsegs⟩ := normal_plain_cons.1 h
  exact normal_plain_cons.2 ⟨ht, hhead, hsegs⟩

theorem Normal.reverse {segs : List Segment} (h : Normal segs) : Normal segs.reverse := by
  refine ⟨fun s hs => h.nonempty s (List.mem_reverse.1 hs), ?_⟩
  rw [List.isChain_reverse]
  exact h.apart.imp fun s t hst ht hs => hst hs ht

/-! ## One normal form -/

/-- Plain text in front of other segments is found again in their glyphs. -/
theorem takeWhile_glyphs (s : String) {segs : List Segment}
    (hhead : ∀ t ∈ segs.head?, t.target ≠ none) :
    (s.toList.map Glyph.char ++ segs.flatMap glyphs).takeWhile Glyph.isChar =
      s.toList.map .char := by
  rw [List.takeWhile_append_of_pos (by simp [Glyph.isChar])]
  cases segs with
  | nil => simp
  | cons t segs =>
    cases t using byKind with
    | plain t => exact absurd rfl (hhead (.plain t) rfl)
    | link t target => simp [Glyph.isChar]

theorem exists_char_cons {s : String} (hs : s ≠ "") :
    ∃ c gs, s.toList.map Glyph.char = .char c :: gs := by
  obtain ⟨c, cs, hl⟩ := List.exists_cons_of_ne_nil (show s.toList ≠ [] by simpa using hs)
  exact ⟨c, cs.map .char, by rw [hl, List.map_cons]⟩

theorem Normal.eq_nil {segs : List Segment} (h : Normal segs) (hg : segs.flatMap glyphs = []) :
    segs = [] := by
  cases segs with
  | nil => rfl
  | cons s segs =>
    cases s using byKind with
    | plain s =>
      rw [List.flatMap_cons, List.append_eq_nil_iff] at hg
      have hs : s = "" := by simpa using hg.1
      exact absurd hs (normal_plain_cons.1 h).1
    | link s target => simp at hg

/-- **Segments in normal form are determined by their glyphs.** -/
theorem Normal.eq_of_glyphs {segs segs' : List Segment} (h : Normal segs) (h' : Normal segs')
    (hg : segs.flatMap glyphs = segs'.flatMap glyphs) : segs = segs' := by
  induction segs generalizing segs' with
  | nil => exact (h'.eq_nil hg.symm).symm
  | cons s segs ih =>
    cases segs' with
    | nil => exact h.eq_nil hg
    | cons s' segs' =>
      rw [List.flatMap_cons, List.flatMap_cons] at hg
      cases s using byKind with
      | plain s =>
        obtain ⟨hs, hhead, hsegs⟩ := normal_plain_cons.1 h
        cases s' using byKind with
        | plain s' =>
          obtain ⟨-, hhead', hsegs'⟩ := normal_plain_cons.1 h'
          -- after plain text comes a link or nothing, so the text ends where the characters do
          have htext := congrArg (List.takeWhile Glyph.isChar) hg
          rw [glyphs_plain, glyphs_plain, takeWhile_glyphs s hhead, takeWhile_glyphs s' hhead']
            at htext
          rw [glyphs_plain, glyphs_plain, htext] at hg
          have hchars := (List.map_injective_iff.2 fun c d => Glyph.char.inj) htext
          rw [String.toList_injective hchars, ih hsegs hsegs' (List.append_cancel_left hg)]
        | link s' target' =>
          obtain ⟨c, gs, hgs⟩ := exists_char_cons hs
          simp [hgs] at hg
      | link s target =>
        cases s' using byKind with
        | plain s' =>
          obtain ⟨c, gs, hgs⟩ := exists_char_cons (normal_plain_cons.1 h').1
          simp [hgs] at hg
        | link s' target' =>
          simp only [glyphs_link, List.cons_append, List.nil_append, List.cons.injEq,
            Glyph.link.injEq] at hg
          obtain ⟨⟨rfl, rfl⟩, hg⟩ := hg
          rw [ih (normal_link_cons.1 h) (normal_link_cons.1 h') hg]

/-! ## Computing it -/

theorem Normal.prepend {segs : List Segment} (h : Normal segs) (s : String) :
    Normal (prepend s segs) := by
  unfold Segment.prepend
  split
  · exact h
  · rename_i hs
    cases segs with
    | nil => exact normal_plain_cons.2 ⟨hs, by simp, normal_nil⟩
    | cons t segs =>
      cases t using byKind with
      | plain t => exact h.replace_plain (by simp [hs])
      | link t target => exact normal_plain_cons.2 ⟨hs, by simp, h⟩

theorem glyphs_prepend (s : String) (segs : List Segment) :
    (prepend s segs).flatMap glyphs = s.toList.map .char ++ segs.flatMap glyphs := by
  unfold prepend
  split
  · rename_i hs
    simp [hs]
  · cases segs with
    | nil => simp
    | cons t segs =>
      cases t using byKind with
      | plain t =>
        show (plain (s ++ t) :: segs).flatMap glyphs = _
        simp
      | link t target =>
        show (plain s :: link t target :: segs).flatMap glyphs = _
        simp

theorem normal_normalize (segs : List Segment) : Normal (normalize segs) := by
  induction segs with
  | nil => exact normal_nil
  | cons s segs ih =>
    cases s using byKind with
    | plain s => exact ih.prepend s
    | link s target => exact normal_link_cons.2 ih

theorem glyphs_normalize (segs : List Segment) :
    (normalize segs).flatMap glyphs = segs.flatMap glyphs := by
  induction segs with
  | nil => rfl
  | cons s segs ih =>
    cases s using byKind with
    | plain s => rw [normalize_plain, glyphs_prepend, ih, List.flatMap_cons, glyphs_plain]
    | link s target => rw [normalize_link, List.flatMap_cons, ih, List.flatMap_cons]

end Segment

/-! ## Drafts -/

open Segment (Normal glyphs normalize)

/-- The segment that a call writes. -/
def Call.segment : Call → Segment
  | .text s => .plain s
  | .className c shown => .link shown c.qualified

namespace Draft

/-- Writes plain text or a link. -/
def add (d : Draft) (s : Segment) : Draft :=
  match s.target with
  | none => d.text s.text
  | some target => d.link s.text target

theorem normal_text {d : Draft} (h : Normal d.reversed) (s : String) :
    Normal (d.text s).reversed := by
  unfold text
  split
  · exact h
  · rename_i hs
    obtain ⟨_ | ⟨t, segs⟩⟩ := d
    · exact Segment.normal_plain_cons.2 ⟨hs, by simp, h⟩
    · cases t using Segment.byKind with
      | plain t => exact h.replace_plain (by simp [hs])
      | link t target => exact Segment.normal_plain_cons.2 ⟨hs, by simp, h⟩

theorem normal_add {d : Draft} (h : Normal d.reversed) (s : Segment) :
    Normal (d.add s).reversed := by
  cases s using Segment.byKind with
  | plain s => exact normal_text h s
  | link s target => exact Segment.normal_link_cons.2 h

theorem glyphs_add (d : Draft) (s : Segment) :
    (d.add s).segments.flatMap glyphs = d.segments.flatMap glyphs ++ s.glyphs := by
  cases s using Segment.byKind with
  | plain s =>
    show (d.text s).segments.flatMap glyphs = _
    rcases segments_text_cases s d with ⟨rfl, -⟩ | ⟨init, last, hd, h⟩ | h
    · simp
    · simp [h, hd]
    · simp [h]
  | link s target =>
    show (d.link s target).segments.flatMap glyphs = _
    simp

theorem foldl_add (segs : List Segment) {d : Draft} (h : Normal d.reversed) :
    Normal (segs.foldl add d).reversed ∧
    (segs.foldl add d).segments.flatMap glyphs =
      d.segments.flatMap glyphs ++ segs.flatMap glyphs := by
  induction segs generalizing d with
  | nil => exact ⟨h, by simp⟩
  | cons s segs ih =>
    obtain ⟨hnormal, hglyphs⟩ := ih (normal_add h s)
    refine ⟨hnormal, ?_⟩
    rw [List.foldl_cons, hglyphs, glyphs_add, List.flatMap_cons, List.append_assoc]

/-- **A draft holds the normal form of what was written.** -/
theorem segments_foldl_add (segs : List Segment) :
    (segs.foldl add empty).segments = normalize segs := by
  obtain ⟨hnormal, hglyphs⟩ := foldl_add segs (d := empty) Segment.normal_nil
  apply hnormal.reverse.eq_of_glyphs (Segment.normal_normalize segs)
  rw [Segment.glyphs_normalize]
  exact hglyphs

theorem perform_eq_add : Writer.perform = fun (d : Draft) (c : Call) => d.add c.segment := by
  funext d c
  cases c <;> rfl

end Draft

/-- The segments of a type as they are written, one for each call. -/
def Ty.segments (form : NameForm) (t : Ty) : List Segment := (t.calls form).map Call.segment

namespace Piece

/-- The segments of a piece as they are written. -/
def segments : Piece → List Segment
  | .text s => [.plain s]
  | .type t form => t.segments form

theorem write_eq_foldl (p : Piece) (d : Draft) : p.write d = p.segments.foldl Draft.add d := by
  cases p with
  | text s => rfl
  | type t form =>
    show t.write form d = _
    rw [Ty.write_eq_replay, Draft.perform_eq_add, segments, Ty.segments, List.foldl_map]

theorem compose_eq_normalize (pieces : List Piece) :
    compose pieces = normalize (pieces.flatMap segments) := by
  have hfoldl : pieces.foldl (fun d p => p.write d) Draft.empty =
      (pieces.flatMap segments).foldl Draft.add Draft.empty := by
    rw [List.foldl_flatMap]
    simp only [write_eq_foldl]
  rw [compose, hfoldl, Draft.segments_foldl_add]

end Piece

end Inlay
