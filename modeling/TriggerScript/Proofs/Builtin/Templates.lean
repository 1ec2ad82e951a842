import TriggerScript.Builtin.Registration
import TriggerScript.Proofs.Eval.Congruence
import TriggerScript.Proofs.Number

/-!
# Templates are filled in one pass

A template can be filled if it is made of segments: text without opening braces, and placeholders whose digits denote the
index of a parameter. Cutting it into pieces finds the segments again, so a template has them in one way only, up to where
its text is divided. Filling it is rendering the segments, one after the other and each once; what a parameter is rendered
as is never looked at.
-/

namespace TriggerScript

namespace Text

/-- Decimal digits, at least one, that denote the index of one of a number of parameters. -/
structure ParameterIndex (count : Nat) where
  digits : List Char
  digits_ne_nil : digits ≠ []
  all_digits : ∀ c ∈ digits, c.isDigit
  value_lt : Nat.ofDigitChars 10 digits 0 < count

/-- The index that the digits denote. -/
def ParameterIndex.value {count : Nat} (index : ParameterIndex count) : Fin count :=
  ⟨Nat.ofDigitChars 10 index.digits 0, index.value_lt⟩

/-- What a template for a number of parameters is made of. -/
inductive Segment (count : Nat) where
  /-- Text that stands for itself; closing braces may stand in it. -/
  | literal (text : List Char) (h : '\x7b' ∉ text)
  /-- A placeholder for a parameter. -/
  | placeholder (index : ParameterIndex count)

namespace Segment

variable {count : Nat}

/-- How a segment is written. -/
def written : Segment count → List Char
  | .literal text _ => text
  | .placeholder index => '\x7b' :: (index.digits ++ ['\x7d'])

/-- The template that is made of segments. -/
def template (segments : List (Segment count)) : String :=
  String.ofList (segments.flatMap written)

/-- The characters and the placeholder of a segment. -/
def pieces : Segment count → List Piece
  | .literal text _ => text.map .literal
  | .placeholder index => [.placeholder index.digits]

end Segment

/-! ## Cutting a template -/

/-- A text without opening braces is cut into its characters. -/
theorem piecesFrom_literal {text : List Char} (h : '\x7b' ∉ text) (rest : List Char) :
    piecesFrom none (text ++ rest) = text.map .literal ++ piecesFrom none rest := by
  induction text with
  | nil => rfl
  | cons c text ih =>
    simp only [List.mem_cons, not_or] at h
    rw [List.cons_append, piecesFrom, if_neg (fun hc => h.1 hc.symm), ih h.2]
    rfl

/-- Digits up to a closing brace complete a placeholder. -/
theorem piecesFrom_digits {digits : List Char} (h : ∀ c ∈ digits, c.isDigit) (read rest : List Char) :
    piecesFrom (some read) (digits ++ '\x7d' :: rest) = .placeholder (read.reverse ++ digits) :: piecesFrom none rest := by
  induction digits generalizing read with
  | nil => simp [piecesFrom]
  | cons c digits ih =>
    rw [List.forall_mem_cons] at h
    have hbrace : c ≠ '\x7d' := by
      rintro rfl
      exact absurd h.1 (by decide)
    rw [List.cons_append, piecesFrom, if_neg hbrace, if_pos ((isDigit_ten c).trans h.1), ih h.2]
    simp

/-- Cutting what segments are written as gives their pieces. -/
theorem piecesFrom_written {count : Nat} (segments : List (Segment count)) :
    piecesFrom none (segments.flatMap Segment.written) = segments.flatMap Segment.pieces := by
  induction segments with
  | nil => rfl
  | cons segment segments ih =>
    rw [List.flatMap_cons, List.flatMap_cons, ← ih]
    cases segment with
    | literal text h => exact piecesFrom_literal h _
    | placeholder index =>
      have hcut := piecesFrom_digits index.all_digits [] (segments.flatMap Segment.written)
      simpa [Segment.written, Segment.pieces, piecesFrom] using hcut

/-- The pieces of a template are those of its segments. -/
theorem pieces_template {count : Nat} (segments : List (Segment count)) :
    pieces (Segment.template segments) = segments.flatMap Segment.pieces := by
  rw [pieces, Segment.template, String.toList_ofList, piecesFrom_written]

/-- A piece of a template that can be filled. -/
def Piece.Fits (count : Nat) : Piece → Prop
  | .literal _ => True
  | .placeholder digits => ∃ index : ParameterIndex count, index.digits = digits
  | .malformed => False

/-- What has been read of a placeholder. -/
def pending : Option (List Char) → List Char
  | none => []
  | some read => '\x7b' :: read.reverse

/-- A template whose pieces all fit is made of segments. The induction follows the cutting, also inside a placeholder, where
the segments begin with what has been read of it. -/
theorem exists_segments_of_fits {count : Nat} (mode : Option (List Char)) (cs : List Char)
    (h : ∀ piece ∈ piecesFrom mode cs, piece.Fits count) :
    ∃ segments : List (Segment count), segments.flatMap Segment.written = pending mode ++ cs := by
  induction mode, cs using piecesFrom.induct with
  | case1 => exact ⟨[], rfl⟩
  | case2 rest ih =>
    rw [piecesFrom, if_pos rfl] at h
    exact ih h
  | case3 c rest hc ih =>
    rw [piecesFrom, if_neg hc, List.forall_mem_cons] at h
    obtain ⟨segments, hsegments⟩ := ih h.2
    refine ⟨.literal [c] (by simpa using fun heq => hc heq.symm) :: segments, ?_⟩
    rw [List.flatMap_cons, hsegments]
    rfl
  | case4 read => exact (h .malformed (by simp [piecesFrom])).elim
  | case5 read rest ih =>
    rw [piecesFrom, if_pos rfl, List.forall_mem_cons] at h
    obtain ⟨⟨index, hindex⟩, hrest⟩ := h
    obtain ⟨segments, hsegments⟩ := ih hrest
    refine ⟨.placeholder index :: segments, ?_⟩
    rw [List.flatMap_cons, hsegments]
    simp [Segment.written, pending, hindex]
  | case6 read c rest hbrace hdigit ih =>
    rw [piecesFrom, if_neg hbrace, if_pos hdigit] at h
    obtain ⟨segments, hsegments⟩ := ih h
    exact ⟨segments, by simpa [pending] using hsegments⟩
  | case7 read c rest hbrace hdigit =>
    exact (h .malformed (by simp [piecesFrom, hbrace, hdigit])).elim

/-! ## Parameters -/

/-- Digits that denote an index name the parameter there. -/
theorem parameter?_digits {α : Type} (parameters : List α) (index : ParameterIndex parameters.length) :
    parameter? parameters index.digits = some parameters[index.value] := by
  rw [parameter?, if_neg (by simpa using index.digits_ne_nil), valueOfDigits?_ten index.all_digits, Option.bind_some]
  exact List.getElem?_eq_getElem index.value_lt

/-- Digits that name a parameter denote its index. -/
theorem exists_index_of_parameter? {α : Type} {parameters : List α} {digits : List Char} {parameter : α}
    (h : parameter? parameters digits = some parameter) :
    ∃ index : ParameterIndex parameters.length, index.digits = digits := by
  unfold parameter? at h
  split at h
  · cases h
  · rename_i hne
    obtain ⟨n, hn, hparameter⟩ := Option.bind_eq_some_iff.mp h
    have hdigits : ∀ c ∈ digits, c.isDigit := by
      intro c hc
      rw [← isDigit_ten]
      exact isDigit_of_valueOfDigits? hn c hc
    have hvalue : Nat.ofDigitChars 10 digits 0 = n := Option.some.inj ((valueOfDigits?_ten hdigits 0).symm.trans hn)
    obtain ⟨hlt, _⟩ := List.getElem?_eq_some_iff.mp hparameter
    exact ⟨⟨digits, by simpa using hne, hdigits, hvalue ▸ hlt⟩, rfl⟩

end Text

/-! ## Filling a template -/

open Text

/-- Renders a segment: text as it is, and a placeholder as its parameter. -/
def Text.Segment.render (parameters : List Expr) (render : Expr → Eval String) : Segment parameters.length → Eval String
  | .literal text _ => pure (String.ofList text)
  | .placeholder index => render parameters[index.value]

namespace Arguments

variable (args : Arguments) {template : String} {parameters : List Expr} {render : Expr → Eval String}

/-- Characters that stand for themselves are appended as they are. -/
theorem fillPieces_literal (filled : String) (text : List Char) (rest : List Piece) :
    args.fillPieces template parameters render filled (text.map .literal ++ rest) =
      args.fillPieces template parameters render (filled ++ String.ofList text) rest := by
  induction text generalizing filled with
  | nil => simp
  | cons c text ih =>
    rw [List.map_cons, List.cons_append, fillPieces, ih]
    congr 1
    rw [← String.toList_inj]
    simp

/-- Filling the pieces of segments adds what the segments are rendered as. -/
theorem fillPieces_segments (filled : String) (segments : List (Segment parameters.length)) :
    args.fillPieces template parameters render filled (segments.flatMap Segment.pieces) =
      (fun texts => filled ++ String.join texts) <$> segments.mapM (Segment.render parameters render) := by
  induction segments generalizing filled with
  | nil => simp [fillPieces]
  | cons segment segments ih =>
    rw [List.flatMap_cons, List.mapM_cons]
    cases segment with
    | literal text h =>
      rw [Segment.pieces, fillPieces_literal, ih]
      simp [Segment.render, String.append_assoc]
    | placeholder index =>
      rw [Segment.pieces, List.singleton_append, fillPieces, parameter?_digits]
      simp [Segment.render, ih, String.append_assoc]

/-- Pieces that are filled fit. -/
theorem fits_of_fillPieces {filled text : String} {pieces : List Piece} {output output' : Output}
    (h : args.fillPieces template parameters render filled pieces output = (.ok text, output')) :
    ∀ piece ∈ pieces, piece.Fits parameters.length := by
  induction pieces generalizing filled output with
  | nil => exact List.forall_mem_nil _
  | cons piece pieces ih =>
    rw [List.forall_mem_cons]
    cases piece with
    | literal c => exact ⟨trivial, ih h⟩
    | placeholder digits =>
      rw [fillPieces] at h
      cases hparameter : parameter? parameters digits with
      | none =>
        rw [hparameter] at h
        cases h
      | some parameter =>
        rw [hparameter] at h
        obtain ⟨rendered, between, _, hrest⟩ := Run.bind_eq_ok h
        exact ⟨exists_index_of_parameter? hparameter, ih hrest⟩
    | malformed => cases h

/-- A template is filled segment by segment. -/
theorem fill_template (segments : List (Segment parameters.length)) :
    args.fill (Segment.template segments) parameters render =
      String.join <$> segments.mapM (Segment.render parameters render) := by
  rw [fill, pieces_template, fillPieces_segments]
  simp

/-- A template that is filled is made of segments. -/
theorem exists_segments_of_fill {text : String} {output output' : Output}
    (h : args.fill template parameters render output = (.ok text, output')) :
    ∃ segments : List (Segment parameters.length), Segment.template segments = template := by
  obtain ⟨segments, hsegments⟩ := exists_segments_of_fits none template.toList (args.fits_of_fillPieces h)
  refine ⟨segments, ?_⟩
  rw [Segment.template, hsegments]
  exact String.ofList_toList

/-- A template is filled in one pass, whatever its parameters are rendered as and whatever this registers. It succeeds if and
only if the template is made of segments and they are rendered one after the other, and gives the texts in this order; two
ways to make the template of segments have the same characters and placeholders. -/
theorem filling_is_one_pass (template : String) (parameters : List Expr) (render : Expr → Eval String) :
    (∀ output text output', args.fill template parameters render output = (.ok text, output') ↔
      ∃ segments : List (Segment parameters.length), Segment.template segments = template ∧
        ∃ texts, segments.mapM (Segment.render parameters render) output = (.ok texts, output') ∧ text = String.join texts) ∧
    (∀ segments : List (Segment parameters.length), Segment.template segments = template →
      args.fill template parameters render = String.join <$> segments.mapM (Segment.render parameters render)) ∧
    ∀ segments segments' : List (Segment parameters.length), Segment.template segments = template →
      Segment.template segments' = template → segments.flatMap Segment.pieces = segments'.flatMap Segment.pieces := by
  refine ⟨fun output text output' => ⟨fun h => ?_, ?_⟩, ?_, ?_⟩
  · obtain ⟨segments, rfl⟩ := args.exists_segments_of_fill h
    rw [fill_template, map_eq_pure_bind] at h
    obtain ⟨texts, between, htexts, hjoin⟩ := Run.bind_eq_ok h
    obtain ⟨hsame, rfl⟩ := Prod.mk.inj hjoin
    exact ⟨segments, rfl, texts, htexts, (Except.ok.inj hsame).symm⟩
  · rintro ⟨segments, rfl, texts, htexts, rfl⟩
    rw [fill_template, map_eq_pure_bind, Run.bind_of_eq_ok htexts]
    rfl
  · rintro segments rfl
    exact args.fill_template segments
  · rintro segments segments' rfl hsame
    rw [← pieces_template, ← pieces_template, hsame]

/-- A template with zeros in front of an index and a closing brace that stands alone. -/
def ordinal : List (Segment 2) :=
  [.placeholder ⟨['1'], List.cons_ne_nil _ _, List.all_eq_true.mp rfl, by decide⟩, .literal [' ', 'o', 'f', ' '] (by decide),
   .placeholder ⟨['0', '0'], List.cons_ne_nil _ _, List.all_eq_true.mp rfl, by decide⟩, .literal ['\x7d'] (by decide)]

/-- A call with this template, where a parameter looks like a placeholder itself. -/
def ordinalCall : Arguments :=
  ⟨"rich_presence_display", [.text {} (Segment.template ordinal), .integer {} 5, .text {} "\x7b0\x7d"], {}⟩

/-- A parameter that looks like a placeholder is not filled again. -/
theorem filling_is_one_pass_ordinal :
    Segment.template ordinal = "\x7b1\x7d of \x7b00\x7d\x7d" ∧
      ordinalCall.fill (Segment.template ordinal) (ordinalCall.values.drop 1) ordinalCall.presenceParameter {} =
        (.ok "\x7b0\x7d of 5\x7d", {}) := by
  refine ⟨by decide, ((ordinalCall.filling_is_one_pass _ _ _).1 _ _ _).mpr ?_⟩
  exact ⟨ordinal, rfl, ["\x7b0\x7d", " of ", "5", "\x7d"], rfl, by decide⟩

end Arguments

end TriggerScript
