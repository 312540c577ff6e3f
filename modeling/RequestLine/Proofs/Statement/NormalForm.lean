import Mathlib.Data.List.Destutter
import RequestLine.Proofs.Statement.Acceptance
import RequestLine.Proofs.Statement.Joined

/-!
# The normal form of a statement

A statement is read through its trimmed pieces. Joined with one pipe and its two spaces between each
two, they are a statement again, which is cut into the same pieces. Pipes that separate no two
pieces do not count.

* `joinable_of_read`: the trimmed pieces of a statement can be joined if they are sections.
* `collapsePipes`: the text with one pipe for each run of pipes and none at its ends;
  `bare_collapsePipes`: no pipe is left to spare.
* `pieces_collapsePipes`: the pieces are the same.
* `segments_normal_form`: cutting undoes joining, an accepted statement has a normal form that means
  the same, and spare pipes make no difference.
-/

namespace RequestLine

/-! ## Joining the sections of a statement -/

theorem joinable_of_read {s : Text} {cs : List Text} (hcs : cleanSegments (segments s) = .ok cs)
    (hread : ∀ c ∈ cs, ∃ x, Section.read c = .ok x) : ∀ c ∈ cs, Joinable c := by
  obtain ⟨-, rfl⟩ := cleanSegments_eq_ok_iff.1 hcs
  intro c hc
  obtain ⟨x, hx⟩ := hread c hc
  obtain ⟨p, hp, rfl⟩ := List.mem_map.1 hc
  have hne : p.trim ≠ [] := by
    intro hnil
    rw [hnil] at hx
    cases hx
  refine ⟨Text.trimmed_trim hne, fun hmem => ?_⟩
  exact ((cut_pieces s).spec hp).1 (Text.mem_of_mem_trim hmem)

/-- The sections of an accepted statement, joined again, describe the same request. -/
theorem parse_joinSections_of_parse {s : Text} {r : Request} (h : Request.parse s = .ok r) :
    ∃ cs, cleanSegments (segments s) = .ok cs ∧ (∀ c ∈ cs, Joinable c) ∧
      Request.parse (joinSections cs) = .ok r := by
  obtain ⟨-, ss, hsections, hmake⟩ := parse_eq_ok_iff.1 h
  obtain ⟨cs, hcs, hmap⟩ := bind_eq_ok_iff.1 hsections
  have hread := mapM_eq_ok_iff.1 hmap
  have hjoinable := joinable_of_read hcs fun c hc => exists_of_mem_left hread hc
  refine ⟨cs, hcs, hjoinable, parse_eq_ok_iff.2 ⟨?_, ss, ?_, hmake⟩⟩
  · refine joinSections_ne_nil hjoinable ?_
    rintro rfl
    -- no sections make no request
    cases hread
    cases hmake
  · exact readSections_joinSections hjoinable hread

/-! ## Spare pipes -/

/-- Not both are pipes. -/
def NotBothPipes (c d : CodePoint) : Prop := c ≠ pipe ∨ d ≠ pipe

instance : DecidableRel NotBothPipes := fun _ _ => inferInstanceAs (Decidable (_ ∨ _))

/-- The text with one pipe for each run of pipes, and none at either end. -/
def collapsePipes (s : Text) : Text :=
  ((s.destutter NotBothPipes).dropWhile (· = pipe)).rdropWhile (· = pipe)

/-- No pipe stands at an end of the text or next to another one. -/
structure Bare (t : Text) : Prop where
  start : ¬ [pipe] <+: t
  inner : ¬ [pipe, pipe] <:+: t
  ending : ¬ [pipe] <:+ t

theorem bare_collapsePipes (s : Text) : Bare (collapsePipes s) := by
  have hprefix : collapsePipes s <+: (s.destutter NotBothPipes).dropWhile (· = pipe) :=
    List.rdropWhile_prefix _ _
  constructor
  · intro hpipe
    obtain ⟨r, hr⟩ := hpipe.trans hprefix
    have hhead := List.head?_dropWhile_not (· = pipe) (s.destutter NotBothPipes)
    rw [← hr] at hhead
    simp at hhead
  · intro hpipes
    have hinfix := (hpipes.trans hprefix.isInfix).trans (List.dropWhile_suffix _).isInfix
    obtain ⟨a, b, hab⟩ := hinfix
    have hchain := List.isChain_destutter NotBothPipes s
    rw [← hab] at hchain
    have hpair : NotBothPipes pipe pipe :=
      List.isChain_pair.1 hchain.left_of_append.right_of_append
    exact hpair.elim (· rfl) (· rfl)
  · rintro ⟨r, hr⟩
    have hne : collapsePipes s ≠ [] := by simp [← hr]
    have hlast : (collapsePipes s).getLast hne = pipe := by simp [← hr]
    exact List.rdropWhile_last_not (· = pipe) _ hne (decide_eq_true hlast)

theorem pieces_append_destutter' (p : Text) (c : CodePoint) (s : Text) :
    pieces (p ++ s.destutter' NotBothPipes c) = pieces (p ++ c :: s) := by
  induction s generalizing p c with
  | nil => rfl
  | cons d s ih =>
    by_cases h : NotBothPipes c d
    · rw [List.destutter'_cons_pos s h, List.append_cons, ih, ← List.append_cons]
    · obtain ⟨rfl, rfl⟩ : c = pipe ∧ d = pipe := by simpa [NotBothPipes] using h
      rw [List.destutter'_cons_neg s h, ih, pieces_append_pipe, pieces_append_pipe,
        pieces_pipe_cons]

theorem pieces_destutter (s : Text) : pieces (s.destutter NotBothPipes) = pieces s := by
  cases s with
  | nil => rfl
  | cons c s => exact pieces_append_destutter' [] c s

theorem pieces_dropWhile (s : Text) : pieces (s.dropWhile (· = pipe)) = pieces s := by
  induction s with
  | nil => rfl
  | cons c s ih =>
    by_cases hc : c = pipe
    · rw [List.dropWhile_cons_of_pos (by simpa using hc), ih, hc, pieces_pipe_cons]
    · rw [List.dropWhile_cons_of_neg (by simpa using hc)]

theorem pieces_rdropWhile (s : Text) : pieces (s.rdropWhile (· = pipe)) = pieces s := by
  induction s using List.reverseRecOn with
  | nil => rfl
  | append_singleton s c ih =>
    by_cases hc : c = pipe
    · rw [List.rdropWhile_concat_pos _ _ _ (by simpa using hc), ih, hc, pieces_append_pipe,
        pieces_nil, List.append_nil]
    · rw [List.rdropWhile_concat_neg _ _ _ (by simpa using hc)]

/-- Spare pipes cut nothing. -/
theorem pieces_collapsePipes (s : Text) : pieces (collapsePipes s) = pieces s := by
  rw [collapsePipes, pieces_rdropWhile, pieces_dropWhile, pieces_destutter]

theorem segments_collapsePipes (s : Text) : segments (collapsePipes s) = segments s := by
  rw [segments, segments, pieces_collapsePipes]

theorem Cut.ne_nil {s : Text} {ps : List Text} (h : Cut s ps) (hs : ∃ c ∈ s, c ≠ pipe) :
    ps ≠ [] := by
  induction h with
  | done =>
    obtain ⟨c, hc, -⟩ := hs
    cases hc
  | skip _ ih =>
    obtain ⟨c, hc, hne⟩ := hs
    exact ih ⟨c, List.mem_of_ne_of_mem hne hc, hne⟩
  | last => exact List.cons_ne_nil _ _
  | piece => exact List.cons_ne_nil _ _

theorem parse_collapsePipes {s : Text} (hs : ∃ c ∈ s, c ≠ pipe) :
    Request.parse (collapsePipes s) = Request.parse s := by
  have hpieces := (cut_pieces s).ne_nil hs
  have hne : s ≠ [] := by
    rintro rfl
    exact hpieces pieces_nil
  have hcollapsed : collapsePipes s ≠ [] := by
    intro hnil
    have hsame := pieces_collapsePipes s
    rw [hnil, pieces_nil] at hsame
    exact hpieces hsame.symm
  rw [Request.parse, Request.parse, if_neg (by simpa using hcollapsed), if_neg (by simpa using hne),
    Request.readSections, Request.readSections, segments_collapsePipes]

/-! ## The normal form -/

/-- **The normal form of a statement.** Cutting and trimming undo the joining of trimmed texts. The
sections of an accepted statement are joined to one that describes the same request, and its
sections are the same. Spare pipes change neither the segments, which are the pieces in order with
their places, nor the outcome of a text that holds anything else. -/
theorem segments_normal_form :
    (∀ cs, (∀ c ∈ cs, Joinable c) → cleanSegments (segments (joinSections cs)) = .ok cs) ∧
      (∀ s r, Request.parse s = .ok r → ∃ cs, cleanSegments (segments s) = .ok cs ∧
        Request.parse (joinSections cs) = .ok r ∧
        cleanSegments (segments (joinSections cs)) = .ok cs) ∧
      ∀ s, Bare (collapsePipes s) ∧ segments (collapsePipes s) = segments s ∧
        (∃ ps, Cut s ps ∧ Placed ps (segments s)) ∧
        ((∃ c ∈ s, c ≠ pipe) → Request.parse (collapsePipes s) = Request.parse s) := by
  refine ⟨fun cs => cleanSegments_joinSections, fun s r h => ?_, fun s => ?_⟩
  · obtain ⟨cs, hcs, hjoinable, hparse⟩ := parse_joinSections_of_parse h
    exact ⟨cs, hcs, hparse, cleanSegments_joinSections hjoinable⟩
  · exact ⟨bare_collapsePipes s, segments_collapsePipes s,
      ⟨pieces s, cut_pieces s, placed_segments s⟩, parse_collapsePipes⟩

/-- A statement with spare pipes and an ideographic space, and sections with a space of their own. -/
theorem segments_normal_form_spare_pipes :
    cleanSegments (segments (joinSections ["HTTP GET", "URL a\u00a0b"])) =
        .ok ["HTTP GET", "URL a\u00a0b"] ∧
      ∃ r cs, Request.parse "||HTTP GET | URL x\u3000 ||| BODY true|" = .ok r ∧
        Request.parse (joinSections cs) = .ok r ∧
        Request.parse (collapsePipes "||HTTP GET | URL x\u3000 ||| BODY true|") = .ok r := by
  have hjoinable : ∀ c ∈ (["HTTP GET", "URL a\u00a0b"] : List Text), Joinable c := by
    intro c hc
    simp only [List.mem_cons, List.not_mem_nil, or_false] at hc
    rcases hc with rfl | rfl <;> exact ⟨Text.trimmed_of_trim_eq (by decide) (by decide), by decide⟩
  have hread : Request.parse "||HTTP GET | URL x\u3000 ||| BODY true|" =
      .ok ⟨.get, "x", .obj [], .obj [], .bool true, "x"⟩ := rfl
  have hmore : ∃ c ∈ ("||HTTP GET | URL x\u3000 ||| BODY true|" : Text), c ≠ pipe := by decide
  obtain ⟨hcut, hnormal, hspare⟩ := segments_normal_form
  obtain ⟨cs, -, hparse, -⟩ := hnormal _ _ hread
  obtain ⟨-, -, -, hsame⟩ := hspare "||HTTP GET | URL x\u3000 ||| BODY true|"
  exact ⟨hcut _ hjoinable, _, cs, hread, hparse, (hsame hmore).trans hread⟩

end RequestLine
