import RequestLine.Proofs.Json.Printing
import RequestLine.Proofs.Text.Blank

/-!
# Values in statements

A value stands in a statement between spaces and pipes, so its text must not hold a pipe, begin with
a space, or end with white space.

* `Value.not_space_prefix`, `Value.endsSolid`: no JSON value is written with space at its ends.
* `pipe_not_mem_statementText`: the text of a value in a statement has no pipe.
-/

namespace RequestLine

/-! ## The ends of a value -/

theorem not_isBlank_of_isDigit {c : CodePoint} (h : c.isDigit = true) : c.isBlank = false := by
  rw [isDigit_iff] at h
  simp only [CodePoint.isBlank, ← Bool.not_eq_true, Bool.or_eq_true, Bool.and_eq_true,
    decide_eq_true_eq, beq_iff_eq]
  omega

theorem AllDigits.endsSolid {t : Text} (h : AllDigits t) (ht : t ≠ []) : t.EndsSolid := by
  rcases List.eq_nil_or_concat t with rfl | ⟨r, c, rfl⟩
  · exact absurd rfl ht
  · rw [List.concat_eq_append] at h ⊢
    have hc := h c (List.mem_append_right r List.mem_cons_self)
    exact ⟨r, c, rfl, not_isBlank_of_isDigit hc⟩

namespace Json.Grammar

theorem endsSolid_parts {whole point fraction power : Text} {e : Int} (hwhole : Whole whole)
    (hpoint : Fraction point fraction) (hpower : Exponent power e) :
    (whole ++ (point ++ power)).EndsSolid := by
  cases hpower with
  | absent =>
    rw [List.append_nil]
    cases hpoint with
    | absent =>
      rw [List.append_nil]
      exact hwhole.allDigits.endsSolid hwhole.ne_nil
    | point hdigits hall =>
      exact ((hall.endsSolid hdigits).append [CodePoint.ofChar '.']).append whole
  | @power e sign digits negative he hsign hdigits hall =>
    refine Text.EndsSolid.append (Text.EndsSolid.append ?_ _) _
    exact ((hall.endsSolid hdigits).append sign).append [e]

theorem NumberText.endsSolid {t : Text} {n : Number} (h : NumberText t n) : t.EndsSolid := by
  cases h with
  | integer negative hwhole _ =>
    exact (hwhole.allDigits.endsSolid hwhole.ne_nil).append _
  | decimal negative hwhole hpoint hpower _ =>
    exact (endsSolid_parts hwhole hpoint hpower).append _

theorem constants_endsSolid (d : Dialect) :
    ∀ p ∈ Reader.constants d, p.1 ≠ [] ∧ ∀ c ∈ p.1.getLast?, c.isBlank = false := by
  cases d <;> decide

theorem Value.endsSolid {d : Dialect} {t : Text} {v : Json} (h : Value d t v) : t.EndsSolid := by
  cases h with
  | constant hmem =>
    obtain ⟨hne, hlast⟩ := constants_endsSolid d _ hmem
    rcases List.eq_nil_or_concat t with rfl | ⟨r, c, rfl⟩
    · exact absurd rfl hne
    · rw [List.concat_eq_append] at hlast ⊢
      exact ⟨r, c, rfl, hlast c (by simp)⟩
  | number hn => exact hn.endsSolid
  | string hs =>
    cases hs with
    | @quoted u _ _ => exact ⟨quotationMark :: u, quotationMark, rfl, by decide⟩
  | @array _ u _ _ => exact ⟨_ :: u, CodePoint.ofChar ']', rfl, by decide⟩
  | @object _ u _ _ _ => exact ⟨_ :: u, CodePoint.ofChar '\x7d', rfl, by decide⟩

theorem Value.not_space_prefix {d : Dialect} {t : Text} {v : Json} (h : Value d t v) :
    ¬ (" " : Text) <+: t := by
  obtain ⟨c, r, rfl, hc⟩ := h.solid
  intro hprefix
  obtain rfl := (List.cons_prefix_cons.1 hprefix).1
  cases hc

/-! ## Pipes -/

theorem pipe_ne_of_hexValue? {c : CodePoint} (h : c.hexValue? ≠ none) : pipe ≠ c := by
  rintro rfl
  exact h (by decide)

theorem pipe_not_mem_unitText {digits : Text} {n : Nat} (h : Hex.Writes 4 digits n) :
    pipe ∉ unitText digits := by
  intro hmem
  rcases List.mem_cons.1 hmem with hb | hmem
  · exact absurd hb (by decide)
  · rcases List.mem_cons.1 hmem with hu | hmem
    · exact absurd hu (by decide)
    · exact pipe_ne_of_hexValue? (h.hexValue?_ne_none _ hmem) rfl

/-- Only a code point that stands for itself can bring a pipe into a string. -/
theorem Spelling.pipe_not_mem {c : CodePoint} {t : Text} (h : Spelling c t) (ht : t ≠ [pipe]) :
    pipe ∉ t := by
  cases h with
  | plain => exact fun hmem => ht (by rw [List.mem_singleton.1 hmem])
  | @escape e he =>
    have hall : ∀ p ∈ escapes, pipe ∉ [backslash, p.1] := by decide
    exact hall _ he
  | unit hwrites => exact pipe_not_mem_unitText hwrites
  | pair h₁ h₂ _ _ _ =>
    intro hmem
    rcases List.mem_append.1 hmem with hmem | hmem
    · exact pipe_not_mem_unitText h₁ hmem
    · exact pipe_not_mem_unitText h₂ hmem

theorem Spelling.eq_of_singleton {c e : CodePoint} (h : Spelling c [e]) : c = e := by
  generalize ht : [e] = t at h
  cases h with
  | plain => exact (List.singleton_inj.1 ht).symm
  | escape => cases (List.cons.inj ht).2
  | unit => cases (List.cons.inj ht).2
  | pair => cases (List.cons.inj ht).2

theorem pipe_not_mem_inStatement (c : CodePoint) : pipe ∉ Escape.inStatement c := by
  refine (spelling_inStatement c).pipe_not_mem fun heq => ?_
  unfold Escape.inStatement at heq
  split at heq
  · rename_i hc
    rw [hc] at heq
    exact absurd heq (by decide)
  · rename_i hc
    have hspelling := spelling_ascii c
    rw [heq] at hspelling
    exact hc hspelling.eq_of_singleton

theorem NumberText.pipe_not_mem {t : Text} {n : Number} (h : NumberText t n) : pipe ∉ t := by
  intro hmem
  rcases h.isNumeral pipe hmem with hdigit | hmark
  · exact absurd hdigit (by decide)
  · exact absurd hmark (by decide)

end Json.Grammar

namespace Json

open Grammar

theorem pipe_not_mem_quote (s : Text) : pipe ∉ quote Escape.inStatement s := by
  intro hmem
  rw [quote, List.append_assoc] at hmem
  rcases List.mem_append.1 hmem with hmem | hmem
  · exact absurd hmem (by decide)
  · rcases List.mem_append.1 hmem with hmem | hmem
    · obtain ⟨c, -, hc⟩ := List.mem_flatMap.1 hmem
      exact pipe_not_mem_inStatement c hc
    · exact absurd hmem (by decide)

/-- The text of a value in a statement has no pipe. -/
theorem pipe_not_mem_statementText {P : Text → Prop} {v : Json} (hv : Everywhere (Writable P) v) :
    pipe ∉ v.statementText := by
  unfold statementText
  induction v with
  | null => decide
  | bool b => cases b <;> decide
  | num n => exact (numberText_writeNumber hv.here).pipe_not_mem
  | str s => exact pipe_not_mem_quote s
  | arr items ih =>
    rw [compact_arr]
    intro hmem
    rcases List.mem_cons.1 hmem with hopen | hmem
    · exact absurd hopen (by decide)
    · rcases List.mem_append.1 hmem with hmem | hclose
      · rcases Text.mem_joinWith hmem with hcomma | ⟨t, ht, hmem⟩
        · exact absurd hcomma (by decide)
        · obtain ⟨x, hx, rfl⟩ := List.mem_map.1 ht
          exact ih x hx (hv.item hx) hmem
      · exact absurd hclose (by decide)
  | obj members ih =>
    rw [compact_obj]
    intro hmem
    rcases List.mem_cons.1 hmem with hopen | hmem
    · exact absurd hopen (by decide)
    · rcases List.mem_append.1 hmem with hmem | hclose
      · rcases Text.mem_joinWith hmem with hcomma | ⟨t, ht, hmem⟩
        · exact absurd hcomma (by decide)
        · obtain ⟨m, hm, rfl⟩ := List.mem_map.1 ht
          rcases List.mem_append.1 hmem with hname | hmem
          · exact pipe_not_mem_quote m.1 hname
          · rcases List.mem_cons.1 hmem with hcolon | hvalue
            · exact absurd hcolon (by decide)
            · exact ih m hm (hv.member hm) hvalue
      · exact absurd hclose (by decide)

end Json

end RequestLine
