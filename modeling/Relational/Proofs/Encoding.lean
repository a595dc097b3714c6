import Mathlib.Data.List.Basic
import Relational.Proofs.Results
import Relational.Storage.Lines

/-!
# The lines of an encoded text

In the encoding of a text the byte of a line feed stands for nothing but a line feed. So text that
is written line by line is cut into the same lines again, if no line has a line feed inside or a
carriage return at its end. A line feed inside ends the line early.
-/
namespace Relational.Bytes

theorem ofText_append (s t : String) : ofText (s ++ t) = ofText s ++ ofText t := by
  simp [ofText, String.toByteArray_append]

theorem ofText_eq (s : String) : ofText s = s.toList.flatMap String.utf8EncodeChar := by
  rw [ofText, String.toUTF8_eq_toByteArray, ← String.utf8Encode_toList, List.utf8Encode,
    List.toList_data_toByteArray]

/-- A byte below 128 is a character on its own. -/
theorem toNat_of_mem_utf8EncodeChar {c : Char} {b : UInt8} (h : b ∈ String.utf8EncodeChar c)
    (small : b.toNat < 128) : c.toNat = b.toNat := by
  have code : c.val.toNat = c.toNat := rfl
  have byte (n : Nat) : (UInt8.ofNat n).toNat = n % 256 := UInt8.toNat_ofNat'
  unfold String.utf8EncodeChar at h
  dsimp only at h
  rw [code] at h
  split at h
  · rw [List.mem_singleton.1 h, byte]
    omega
  · split at h
    · simp only [List.mem_cons, List.not_mem_nil, or_false] at h
      rcases h with rfl | rfl <;> rw [byte] at small <;> omega
    · split at h
      · simp only [List.mem_cons, List.not_mem_nil, or_false] at h
        rcases h with rfl | rfl | rfl <;> rw [byte] at small <;> omega
      · simp only [List.mem_cons, List.not_mem_nil, or_false] at h
        rcases h with rfl | rfl | rfl | rfl <;> rw [byte] at small <;> omega

theorem exists_mem_of_mem_ofText {s : String} {b : UInt8} (h : b ∈ ofText s)
    (small : b.toNat < 128) : ∃ c ∈ s.toList, c.toNat = b.toNat := by
  rw [ofText_eq] at h
  obtain ⟨c, hc, hb⟩ := List.mem_flatMap.1 h
  exact ⟨c, hc, toNat_of_mem_utf8EncodeChar hb small⟩

theorem lineFeed_mem_ofText {s : String} : lineFeed ∈ ofText s ↔ '\n' ∈ s.toList := by
  constructor
  · intro h
    obtain ⟨c, hc, code⟩ := exists_mem_of_mem_ofText h (by decide)
    have same : c = '\n' := Char.toNat_inj.1 code
    exact same ▸ hc
  · intro h
    rw [ofText_eq]
    exact List.mem_flatMap.2 ⟨_, h, by decide⟩

theorem ofText_toText? {bytes : Bytes} {s : String} (h : toText? bytes = some s) :
    ofText s = bytes := by
  unfold toText? String.fromUTF8? at h
  split at h
  · cases h
    rfl
  · cases h

theorem linesAfter_append {bytes : Bytes} (h : lineFeed ∉ bytes) (reversed rest : Bytes) :
    linesAfter reversed (bytes ++ lineFeed :: rest) =
      endedLine (bytes.reverse ++ reversed) :: linesAfter [] rest := by
  induction bytes generalizing reversed with
  | nil => rfl
  | cons b bytes ih =>
    have other : b ≠ lineFeed := fun same => h (same ▸ List.mem_cons_self)
    rw [List.cons_append, linesAfter, if_neg other,
      ih (fun inside => h (List.mem_cons_of_mem b inside)), List.reverse_cons, List.append_assoc,
      List.singleton_append]

theorem endedLine_reverse {bytes : Bytes} (h : bytes.getLast? ≠ some carriageReturn) :
    endedLine bytes.reverse = bytes := by
  rw [← List.head?_reverse] at h
  generalize hr : bytes.reverse = reversed at h ⊢
  have back : bytes = reversed.reverse := by rw [← hr, List.reverse_reverse]
  cases reversed with
  | nil => exact back.symm
  | cons b reversed =>
    have other : b ≠ carriageReturn := fun same => h (congrArg some same)
    rw [endedLine, if_neg other, back]

theorem lineFeed_notMem_endedLine {reversed : Bytes} (h : lineFeed ∉ reversed) :
    lineFeed ∉ endedLine reversed := by
  unfold endedLine
  split
  · exact h
  · split <;> rw [List.mem_reverse]
    · exact fun inside => h (List.mem_cons_of_mem _ inside)
    · exact h

theorem lineFeed_notMem_linesAfter {reversed bytes : Bytes} (h : lineFeed ∉ reversed) :
    ∀ line ∈ linesAfter reversed bytes, lineFeed ∉ line := by
  induction bytes generalizing reversed with
  | nil =>
    unfold linesAfter
    split
    · exact fun _ hl => nomatch hl
    · intro line hl
      rw [List.mem_singleton.1 hl, List.mem_reverse]
      exact h
  | cons b bytes ih =>
    unfold linesAfter
    split
    · exact List.forall_mem_cons.2
        ⟨lineFeed_notMem_endedLine h, ih fun inside => nomatch inside⟩
    · next other =>
      apply ih
      intro inside
      rcases List.mem_cons.1 inside with same | inside
      · exact other same.symm
      · exact h inside

theorem lineFeed_notMem_lines (bytes : Bytes) : ∀ line ∈ bytes.lines, lineFeed ∉ line :=
  lineFeed_notMem_linesAfter fun inside => nomatch inside

/-- A text that stays one line when it is written. -/
structure IsLine (s : String) : Prop where
  noLineFeed : '\n' ∉ s.toList
  noCarriageReturn : s.toList.getLast? ≠ some '\r'

theorem getLast?_ofText_ne {s : String} (h : s.toList.getLast? ≠ some '\r') :
    (ofText s).getLast? ≠ some carriageReturn := by
  intro last
  rw [ofText_eq] at last
  rcases List.eq_nil_or_concat s.toList with empty | ⟨front, c, parts⟩
  · rw [empty] at last
    cases last
  · rw [parts, List.concat_eq_append, List.flatMap_append, List.flatMap_singleton,
      List.getLast?_append_of_ne_nil _ String.utf8EncodeChar_ne_nil] at last
    have code := toNat_of_mem_utf8EncodeChar (List.mem_of_getLast? last) (by decide)
    have same : c = '\r' := Char.toNat_inj.1 code
    apply h
    rw [parts, List.concat_eq_append, List.getLast?_append_of_ne_nil _ (List.cons_ne_nil _ _), same]
    rfl

/-- Of the text before a line feed, a carriage return at the end is lost. -/
theorem endedLine_ofText (s : String) : ∃ line : String,
    endedLine (ofText s).reverse = ofText line ∧ (line = s ∨ s.toList = line.toList ++ ['\r']) := by
  by_cases last : s.toList.getLast? = some '\r'
  · obtain ⟨front, parts⟩ := List.getLast?_eq_some_iff.1 last
    have whole : s = String.ofList front ++ "\r" := by
      apply String.toList_injective
      rw [parts, String.toList_append, String.toList_ofList]
      rfl
    have ended : ofText "\r" = [carriageReturn] := by decide
    refine ⟨String.ofList front, ?_, .inr (by rw [parts, String.toList_ofList])⟩
    rw [whole, ofText_append, ended, List.reverse_append]
    show endedLine (carriageReturn :: (ofText (String.ofList front)).reverse) = _
    rw [endedLine, if_pos rfl, List.reverse_reverse]
  · exact ⟨s, endedLine_reverse (getLast?_ofText_ne last), .inl rfl⟩

theorem linesAfter_lineFeed {front : String} (h : '\n' ∉ front.toList) (back : String)
    (rest : Bytes) : linesAfter [] (ofText (front ++ "\n" ++ back) ++ rest) =
      endedLine (ofText front).reverse :: linesAfter [] (ofText back ++ rest) := by
  have ended : ofText "\n" = [lineFeed] := by decide
  have inside : lineFeed ∉ ofText front := fun hf => h (lineFeed_mem_ofText.1 hf)
  rw [ofText_append, ofText_append, ended, List.append_assoc, List.append_assoc,
    List.singleton_append, linesAfter_append inside, List.append_nil]

theorem linesAfter_ofText {s : String} (h : IsLine s) (rest : Bytes) :
    linesAfter [] (ofText (s ++ "\n") ++ rest) = ofText s :: linesAfter [] rest := by
  have cut := linesAfter_lineFeed h.noLineFeed "" rest
  rw [endedLine_reverse (getLast?_ofText_ne h.noCarriageReturn), String.append_empty] at cut
  exact cut

/-- A line feed inside is the end of the first line. -/
theorem linesAfter_cut {s : String} (h : '\n' ∈ s.toList) (rest : Bytes) :
    ∃ (line : String) (more : List Bytes),
      linesAfter [] (ofText (s ++ "\n") ++ rest) = ofText line :: more ∧
        (line.toList = s.toList.takeWhile (· != '\n') ∨
          s.toList.takeWhile (· != '\n') = line.toList ++ ['\r']) := by
  obtain ⟨front, back, parts, noLineFeed⟩ := List.eq_append_cons_of_mem h
  have taken : s.toList.takeWhile (· != '\n') = front := by
    have kept : ∀ c ∈ front, (c != '\n') = true := by
      intro c hc
      rw [bne_iff_ne]
      rintro rfl
      exact noLineFeed hc
    rw [parts, List.takeWhile_append_of_pos kept, List.takeWhile_cons_of_neg (by decide),
      List.append_nil]
  have whole : s ++ "\n" = String.ofList front ++ "\n" ++ (String.ofList back ++ "\n") := by
    apply String.toList_injective
    rw [String.toList_append, parts]
    simp
  obtain ⟨line, ended, kept⟩ := endedLine_ofText (String.ofList front)
  rw [whole, linesAfter_lineFeed (by rwa [String.toList_ofList]), ended, taken]
  rw [String.toList_ofList] at kept
  refine ⟨line, _, rfl, kept.imp_left fun same => ?_⟩
  rw [same, String.toList_ofList]

theorem ofText_intercalate (s : String) (ss : List String) :
    ofText (String.intercalate "\n" (s :: ss) ++ "\n") =
      ofText (s ++ "\n") ++ ss.flatMap fun s => ofText (s ++ "\n") := by
  induction ss generalizing s with
  | nil => rw [String.intercalate_singleton, List.flatMap_nil, List.append_nil]
  | cons t ss ih =>
    rw [String.intercalate_cons_cons, String.append_assoc, ofText_append, ih, List.flatMap_cons]

end Relational.Bytes
