import Mathlib.Data.List.DropRight
import RequestLine.Text.Blank

/-!
# Trimming

* `Text.Trimmed`: the texts with no white space at either end.
* `trim_append`: trimming removes what was put around such a text.
* `trimmed_trim`: what trimming leaves of a text, if anything, is such a text.
-/

namespace RequestLine.Text

/-- The text ends with a code point that is no white space. -/
def EndsSolid (t : Text) : Prop := ∃ r c, t = r ++ [c] ∧ c.isBlank = false

/-- The text begins and ends with code points that are no white space. -/
structure Trimmed (t : Text) : Prop where
  first : ∃ c r, t = c :: r ∧ c.isBlank = false
  last : EndsSolid t

theorem EndsSolid.append {t : Text} (h : EndsSolid t) (a : Text) : EndsSolid (a ++ t) := by
  obtain ⟨r, c, rfl, hc⟩ := h
  exact ⟨a ++ r, c, by rw [List.append_assoc], hc⟩

theorem EndsSolid.of_append {a t : Text} (h : EndsSolid (a ++ t)) (ht : t ≠ []) : EndsSolid t := by
  obtain ⟨r, c, heq, hc⟩ := h
  rcases List.eq_nil_or_concat t with rfl | ⟨u, d, rfl⟩
  · exact absurd rfl ht
  · rw [List.concat_eq_append, ← List.append_assoc] at heq
    have hd : d = c := List.singleton_inj.1 (List.append_inj' heq rfl).2
    exact ⟨u, d, List.concat_eq_append, hd ▸ hc⟩

theorem EndsSolid.ne_nil {t : Text} (h : EndsSolid t) : t ≠ [] := by
  obtain ⟨r, c, rfl, -⟩ := h
  simp

theorem trimEnd_of_endsSolid {t b : Text} (ht : EndsSolid t)
    (hb : ∀ c ∈ b, c.isBlank = true) : (t ++ b).trimEnd = t := by
  obtain ⟨r, c, rfl, hc⟩ := ht
  have hblank : ∀ c ∈ b.reverse, c.isBlank = true := fun c hc => hb c (List.mem_reverse.1 hc)
  rw [trimEnd, List.reverse_append, List.dropWhile_append_of_pos hblank, List.reverse_append,
    List.reverse_singleton, List.singleton_append, List.dropWhile_cons_of_neg (by simp [hc])]
  simp

theorem trimEnd_append_of_blank (t : Text) {b : Text} (hb : ∀ c ∈ b, c.isBlank = true) :
    (t ++ b).trimEnd = t.trimEnd := by
  have hblank : ∀ c ∈ b.reverse, c.isBlank = true := fun c hc => hb c (List.mem_reverse.1 hc)
  rw [trimEnd, List.reverse_append, List.dropWhile_append_of_pos hblank, trimEnd]

/-- What is taken from the end of a text is white space. -/
theorem exists_trimEnd_append (t : Text) :
    ∃ b : Text, (∀ c ∈ b, c.isBlank = true) ∧ t.trimEnd ++ b = t := by
  refine ⟨(t.reverse.takeWhile CodePoint.isBlank).reverse, fun c hc => ?_, ?_⟩
  · exact List.mem_takeWhile_imp (List.mem_reverse.1 hc)
  · rw [trimEnd, ← List.reverse_append, List.takeWhile_append_dropWhile, List.reverse_reverse]

theorem trimStart_append {a t : Text} (ha : ∀ c ∈ a, c.isBlank = true)
    (ht : ∃ c r, t = c :: r ∧ c.isBlank = false) : (a ++ t).trimStart = t := by
  obtain ⟨c, r, rfl, hc⟩ := ht
  rw [trimStart, List.dropWhile_append_of_pos ha, List.dropWhile_cons_of_neg (by simp [hc])]

/-- Trimming removes the white space around a text. -/
theorem trim_append {a t b : Text} (ha : ∀ c ∈ a, c.isBlank = true)
    (hb : ∀ c ∈ b, c.isBlank = true) (ht : t.Trimmed) : (a ++ (t ++ b)).trim = t := by
  obtain ⟨c, r, rfl, hc⟩ := ht.first
  have hstart : (a ++ (c :: r ++ b)).trimStart = c :: r ++ b :=
    trimStart_append ha ⟨c, r ++ b, rfl, hc⟩
  rw [trim, hstart, trimEnd_of_endsSolid ht.last hb]

theorem trim_append_eq_trimStart (t : Text) : ∃ b, t.trim ++ b = t.trimStart :=
  List.rdropWhile_prefix CodePoint.isBlank t.trimStart

theorem trim_sublist (t : Text) : t.trim.Sublist t := by
  obtain ⟨b, hb⟩ := t.trim_append_eq_trimStart
  have hstart : t.trimStart.Sublist t := List.dropWhile_sublist CodePoint.isBlank
  exact (hb ▸ List.sublist_append_left t.trim b).trans hstart

theorem mem_of_mem_trim {t : Text} {c : CodePoint} (h : c ∈ t.trim) : c ∈ t :=
  t.trim_sublist.subset h

theorem length_trim_le (t : Text) : t.trim.length ≤ t.length := t.trim_sublist.length_le

theorem endsSolid_trimEnd {t : Text} (h : t.trimEnd ≠ []) : EndsSolid t.trimEnd := by
  have hhead := List.head?_dropWhile_not CodePoint.isBlank t.reverse
  unfold trimEnd at h ⊢
  cases hdrop : t.reverse.dropWhile CodePoint.isBlank with
  | nil =>
    rw [hdrop] at h
    exact absurd rfl h
  | cons c r =>
    rw [hdrop] at hhead
    exact ⟨r.reverse, c, List.reverse_cons, hhead⟩

/-- What is left of a text after trimming does not end with white space. -/
theorem endsSolid_trim {t : Text} (h : t.trim ≠ []) : EndsSolid t.trim := endsSolid_trimEnd h

/-- What is left after trimming begins and ends with no white space. -/
theorem trimmed_trim {t : Text} (h : t.trim ≠ []) : t.trim.Trimmed := by
  refine ⟨?_, endsSolid_trim h⟩
  obtain ⟨c, r, hcons⟩ := List.exists_cons_of_ne_nil h
  obtain ⟨b, hb⟩ := t.trim_append_eq_trimStart
  have hhead := List.head?_dropWhile_not CodePoint.isBlank t
  rw [← trimStart, ← hb, hcons] at hhead
  exact ⟨c, r, hcons, hhead⟩

theorem trimmed_of_trim_eq {t : Text} (h : t.trim = t) (hne : t ≠ []) : t.Trimmed := by
  have htrimmed := trimmed_trim (t := t) (by rwa [h])
  rwa [h] at htrimmed

end RequestLine.Text
