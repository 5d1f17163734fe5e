import Inlay.Proofs.NormalForm

/-!
# What a draft holds after any operations

A draft is written to by five operations (`Draft.Op`), of which one writes a whole type. Each of
them is a series of writes, plain texts and links (`Draft.Op.writes`), and performs them one by one
(`Draft.Op.apply_eq_foldl`). What a draft holds is an invariant of single writes:

* `Draft.Holds`: the draft is in normal form, its text is what was written, and its links are those
  that were written. One write keeps it (`Draft.Holds.add`), so a run of operations does
  (`Draft.holds_run`).
* `Draft.join_segments_type`, `Draft.links_segments_type`: what a type writes.
* `Draft.text_text`: two texts in a row are one text. Hence texts can be joined before they are
  written (`Draft.foldl_joinTexts`).
* `Draft.run_normal_form`: all of it put together.
-/

namespace Inlay

open Segment (Normal normalize)

/-- Whether a segment leads somewhere. -/
def Segment.isLink (s : Segment) : Bool := s.target.isSome

/-- Makes one text of texts that stand in a row, also where some are empty. -/
def Segment.joinTexts : List Segment → List Segment
  | [] => []
  | s :: rest =>
    match s.target, joinTexts rest with
    | none, ⟨t, none⟩ :: rest => .plain (s.text ++ t) :: rest
    | _, rest => s :: rest

namespace Draft

/-- What can be done to a draft. -/
inductive Op where
  | text (s : String)
  /-- Plain text by way of the `Writer`. -/
  | writerText (s : String)
  | link (s target : String)
  | className (name : ClassName) (shown : String)
  | type (t : Ty) (form : NameForm)

def Op.apply : Op → Draft → Draft
  | .text s => Draft.text s
  | .writerText s => Writer.text s
  | .link s target => Draft.link s target
  | .className name shown => Writer.className name shown
  | .type t form => Draft.type t form

/-- What an operation writes, one segment for each text and each link. -/
def Op.writes : Op → List Segment
  | .text s | .writerText s => [.plain s]
  | .link s target => [.link s target]
  | .className name shown => [.link shown name.qualified]
  | .type t form => t.segments form

/-- The draft after some operations. -/
def run (ops : List Op) : Draft := ops.foldl (fun d op => op.apply d) empty

def written (ops : List Op) : List Segment := ops.flatMap Op.writes

theorem Op.apply_eq_foldl (op : Op) (d : Draft) : op.apply d = op.writes.foldl add d := by
  cases op with
  | type t form => exact (Piece.type t form).write_eq_foldl d
  | _ => rfl

theorem run_eq_foldl (ops : List Op) : run ops = (written ops).foldl add empty := by
  rw [run, written, List.foldl_flatMap]
  simp only [Op.apply_eq_foldl]

/-! ## What is held -/

/-- The draft holds the writes `ws`. -/
structure Holds (d : Draft) (ws : List Segment) : Prop where
  normal : Normal d.reversed
  content : d.content = String.join (ws.map (·.text))
  links : d.segments.filter Segment.isLink = ws.filter Segment.isLink

theorem holds_empty : Holds empty [] := ⟨Segment.normal_nil, rfl, rfl⟩

theorem content_add (d : Draft) (s : Segment) : (d.add s).content = d.content ++ s.text := by
  cases s using Segment.byKind with
  | plain s => exact content_text s d
  | link s target => exact content_link s target d

theorem links_text (s : String) (d : Draft) :
    (d.text s).segments.filter Segment.isLink = d.segments.filter Segment.isLink := by
  rcases segments_text_cases s d with ⟨-, h⟩ | ⟨init, last, hd, h⟩ | h
  · rw [h]
  · simp [h, hd, Segment.isLink, Segment.plain]
  · simp [h, Segment.isLink, Segment.plain]

theorem links_add (d : Draft) (s : Segment) : (d.add s).segments.filter Segment.isLink =
    d.segments.filter Segment.isLink ++ [s].filter Segment.isLink := by
  cases s using Segment.byKind with
  | plain s => exact (links_text s d).trans (List.append_nil _).symm
  | link s target =>
    show (d.link s target).segments.filter Segment.isLink = _
    rw [segments_link, List.filter_append]

theorem Holds.add {d : Draft} {ws : List Segment} (h : Holds d ws) (s : Segment) :
    Holds (d.add s) (ws ++ [s]) := by
  refine ⟨normal_add h.normal s, ?_, ?_⟩
  · rw [content_add, h.content, List.map_append, String.join_append]
    simp
  · rw [links_add, h.links, List.filter_append]

theorem Holds.foldl {d : Draft} {ws : List Segment} (h : Holds d ws) (segs : List Segment) :
    Holds (segs.foldl Draft.add d) (ws ++ segs) := by
  induction segs generalizing d ws with
  | nil => simpa using h
  | cons s segs ih => simpa using ih (h.add s)

theorem holds_run (ops : List Op) : Holds (run ops) (written ops) := by
  rw [run_eq_foldl]
  exact holds_empty.foldl (written ops)

/-! ## What a type writes -/

theorem join_segments_type (t : Ty) (form : NameForm) :
    String.join ((t.segments form).map (·.text)) = t.render form := by
  have hheld := (holds_run [.type t form]).content
  have hshown : (run [.type t form]).content = "" ++ t.render form := content_type t form empty
  rw [written, List.flatMap_singleton, hshown, String.empty_append] at hheld
  exact hheld.symm

theorem links_calls {form : NameForm} {calls : List Call}
    (h : ∀ c ∈ calls, Call.Alike form form c c) :
    (calls.map Call.segment).filter Segment.isLink =
      (calls.filterMap Call.className?).map fun c => .link (c.text form) c.qualified := by
  induction calls with
  | nil => rfl
  | cons c calls ih =>
    obtain ⟨hc, hcalls⟩ := List.forall_mem_cons.1 h
    cases c with
    | text s =>
      have hplain : (Call.text s).segment.isLink ≠ true := nofun
      rw [List.map_cons, List.filter_cons_of_neg hplain, List.filterMap_cons_none rfl, ih hcalls]
    | className name shown =>
      -- a walk shows a class in its own form
      cases hc
      rw [List.map_cons, List.filter_cons_of_pos rfl, ih hcalls]
      rfl

theorem links_segments_type (t : Ty) (form : NameForm) :
    (t.segments form).filter Segment.isLink =
      t.classNames.map fun c => .link (c.text form) c.qualified := by
  rw [Ty.segments, links_calls (List.forall₂_same.1 (t.calls_alike form form)), t.calls_classNames]

/-! ## Texts in a row -/

theorem text_text (a b : String) (d : Draft) : (d.text a).text b = d.text (a ++ b) := by
  by_cases ha : a = ""
  · rw [ha, text_empty, String.empty_append]
  by_cases hb : b = ""
  · rw [hb, text_empty, String.append_empty]
  obtain ⟨_ | ⟨s, segs⟩⟩ := d
  · simp [text, ha, hb, Segment.plain]
  · cases s using Segment.byKind with
    | plain s => simp [text, ha, hb, Segment.plain, String.append_assoc]
    | link s target => simp [text, ha, hb, Segment.plain, Segment.link]

theorem foldl_joinTexts (segs : List Segment) (d : Draft) :
    (Segment.joinTexts segs).foldl add d = segs.foldl add d := by
  induction segs generalizing d with
  | nil => rfl
  | cons s segs ih =>
    unfold Segment.joinTexts
    split
    · -- the text of `s` goes in front of the text that comes next
      rename_i t rest hs hrest
      have hadd : d.add s = d.text s.text := by rw [add, hs]
      calc (Segment.plain (s.text ++ t) :: rest).foldl add d
        _ = rest.foldl add ((d.text s.text).text t) := by rw [text_text]; rfl
        _ = (Segment.joinTexts segs).foldl add (d.add s) := by rw [hrest, hadd]; rfl
        _ = segs.foldl add (d.add s) := ih (d.add s)
    · rw [List.foldl_cons, List.foldl_cons, ih]

/-- An operation in the middle of others matters only by what it makes of a draft. -/
theorem run_congr {pre post mid mid' : List Op}
    (h : ∀ d, mid.foldl (fun d op => op.apply d) d = mid'.foldl (fun d op => op.apply d) d) :
    run (pre ++ mid ++ post) = run (pre ++ mid' ++ post) := by
  simp only [run, List.foldl_append, h]

/-- **A draft holds the normal form of what was written.** Whatever is done to an empty draft, no
plain segment is empty and no two of them are neighbours, the text is all that was written, and the
links are those that were written, each with its own text and target; what a type writes is its
text, with links to its classes from left to right. The segments are determined by the writes after
texts in a row are joined. In particular two texts are one text, an empty text is nothing, and it
makes no difference which operation writes a text. -/
theorem run_normal_form :
    (∀ ops, (run ops).segments = normalize (written ops) ∧
      (∀ s ∈ (run ops).segments, s.target = none → s.text ≠ "") ∧
      ((run ops).segments.IsChain fun s t => s.target = none → t.target ≠ none) ∧
      String.join ((run ops).segments.map (·.text)) = String.join ((written ops).map (·.text)) ∧
      (run ops).segments.filter Segment.isLink = (written ops).filter Segment.isLink) ∧
    (∀ t form, String.join ((Op.type t form).writes.map (·.text)) = t.render form ∧
      (Op.type t form).writes.filter Segment.isLink =
        t.classNames.map fun c => .link (c.text form) c.qualified) ∧
    (∀ ops ops', Segment.joinTexts (written ops) = Segment.joinTexts (written ops') →
      run ops = run ops') ∧
    ∀ pre post,
      (∀ a b, run (pre ++ [.text a, .text b] ++ post) = run (pre ++ [.text (a ++ b)] ++ post)) ∧
      run (pre ++ [.text ""] ++ post) = run (pre ++ post) ∧
      ∀ s, run (pre ++ [.writerText s] ++ post) = run (pre ++ [.text s] ++ post) := by
  refine ⟨fun ops => ?_, fun t form => ⟨join_segments_type t form, links_segments_type t form⟩,
    fun ops ops' h => ?_, fun pre post => ⟨fun a b => ?_, ?_, fun s => ?_⟩⟩
  · obtain ⟨hnormal, hcontent, hlinks⟩ := holds_run ops
    obtain ⟨hnonempty, hapart⟩ := hnormal.reverse
    refine ⟨?_, hnonempty, hapart, hcontent, hlinks⟩
    rw [run_eq_foldl, segments_foldl_add]
  · rw [run_eq_foldl, run_eq_foldl, ← foldl_joinTexts, h, foldl_joinTexts]
  · exact run_congr fun d => text_text a b d
  · have hempty : run (pre ++ [.text ""] ++ post) = run (pre ++ [] ++ post) := run_congr text_empty
    rwa [List.append_nil] at hempty
  · exact run_congr fun d => rfl

end Draft

end Inlay
