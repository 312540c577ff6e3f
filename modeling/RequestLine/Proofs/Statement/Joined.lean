import RequestLine.Proofs.Statement.Sections
import RequestLine.Proofs.Text.Blank
import RequestLine.Proofs.Text.Joining

/-!
# Joined sections

Sections that are joined with pipes are cut at these pipes again, and trimming removes the spaces
next to them, as long as no section holds a pipe or ends with white space.

* `framed`: the pieces of joined sections, with their spaces.
* `cut_joinSections`, `allSpaced_framed`, `map_trim_framed`: they are the pieces, they are spaced as
  they have to be, and trimmed they are the sections.
* `cleanSegments_joinSections`: so they are cleaned as they were.
* `readSections_joinSections`: so the sections of the statement are those of the texts.
-/

namespace RequestLine

open Section (space)

/-- The sections with the spaces next to the pipes between them; `lead` stands before the first. -/
def framed (lead : Text) : List Text → List Text
  | [] => []
  | [c] => [lead ++ c]
  | c :: d :: cs => (lead ++ (c ++ [space])) :: framed [space] (d :: cs)

/-- A section that keeps its form when it is joined with others. -/
structure Joinable (c : Text) : Prop where
  trimmed : c.Trimmed
  pipe : pipe ∉ c

theorem isBlank_space : space.isBlank = true := by decide

theorem ne_space_of_not_isBlank {c : CodePoint} (h : c.isBlank = false) : c ≠ space := by
  rintro rfl
  cases h

theorem joinSections_cons_cons (c d : Text) (cs : List Text) :
    joinSections (c :: d :: cs) = c ++ (space :: pipe :: space :: joinSections (d :: cs)) := by
  rw [joinSections, Text.joinWith_cons_cons]
  rfl

/-! ## Cutting -/

theorem cut_append_joinSections {cs : List Text} (hcs : ∀ c ∈ cs, Joinable c) (hne : cs ≠ [])
    {lead : Text} (hlead : pipe ∉ lead) : Cut (lead ++ joinSections cs) (framed lead cs) := by
  induction cs generalizing lead with
  | nil => exact absurd rfl hne
  | cons c cs ih =>
    have hc := hcs c List.mem_cons_self
    have hrest : ∀ d ∈ cs, Joinable d := fun d hd => hcs d (List.mem_cons_of_mem c hd)
    have hcne : c ≠ [] := hc.trimmed.last.ne_nil
    cases cs with
    | nil =>
      rw [joinSections, Text.joinWith_singleton, framed]
      refine .last (fun hnil => hcne (List.append_eq_nil_iff.1 hnil).2) fun hmem => ?_
      rcases List.mem_append.1 hmem with hmem | hmem
      · exact hlead hmem
      · exact hc.pipe hmem
    | cons d cs =>
      have hshape : lead ++ joinSections (c :: d :: cs) =
          (lead ++ (c ++ [space])) ++ pipe :: ([space] ++ joinSections (d :: cs)) := by
        rw [joinSections_cons_cons]
        simp
      rw [hshape, framed]
      refine .piece (by simp) (fun hmem => ?_) (ih hrest (List.cons_ne_nil d cs) (by decide))
      rcases List.mem_append.1 hmem with hmem | hmem
      · exact hlead hmem
      · rcases List.mem_append.1 hmem with hmem | hmem
        · exact hc.pipe hmem
        · exact absurd hmem (by decide)

/-- Joined sections are cut where they were joined. -/
theorem cut_joinSections {cs : List Text} (hcs : ∀ c ∈ cs, Joinable c) (hne : cs ≠ []) :
    Cut (joinSections cs) (framed [] cs) :=
  cut_append_joinSections hcs hne (List.not_mem_nil)

/-! ## Spacing -/

/-- What stands before section number `i`. -/
def leadOf (lead : Text) (i : Nat) : Text := if i = 0 then lead else [space]

/-- What stands after section number `i` of `n`. -/
def trailOf (n i : Nat) : Text := if i + 1 < n then [space] else []

theorem getElem?_framed (lead : Text) (cs : List Text) (i : Nat) :
    (framed lead cs)[i]? = cs[i]?.map fun c => leadOf lead i ++ (c ++ trailOf cs.length i) := by
  induction cs generalizing lead i with
  | nil => rfl
  | cons c cs ih =>
    cases cs with
    | nil =>
      cases i with
      | zero => simp [framed, leadOf, trailOf]
      | succ i => simp [framed]
    | cons d cs =>
      cases i with
      | zero => simp [framed, leadOf, trailOf]
      | succ i =>
        rw [framed, List.getElem?_cons_succ, ih, List.getElem?_cons_succ]
        have hlead : leadOf [space] i = leadOf lead (i + 1) := by simp [leadOf]
        have htrail : trailOf (d :: cs).length i = trailOf (c :: d :: cs).length (i + 1) := by
          simp [trailOf]
        rw [hlead, htrail]

theorem length_framed (lead : Text) (cs : List Text) : (framed lead cs).length = cs.length := by
  induction cs generalizing lead with
  | nil => rfl
  | cons c cs ih =>
    cases cs with
    | nil => rfl
    | cons d cs => rw [framed, List.length_cons, ih, List.length_cons (a := c)]

theorem blank_leadOf (i : Nat) : ∀ c ∈ leadOf [] i, c.isBlank = true := by
  unfold leadOf
  split
  · exact fun c hc => by cases hc
  · intro c hc
    rw [List.mem_singleton.1 hc, isBlank_space]

theorem blank_trailOf (n i : Nat) : ∀ c ∈ trailOf n i, c.isBlank = true := by
  unfold trailOf
  split
  · intro c hc
    rw [List.mem_singleton.1 hc, isBlank_space]
  · exact fun c hc => by cases hc

theorem spaced_of_trimmed {c : Text} (hc : c.Trimmed) (n i : Nat) :
    Spaced n i (leadOf [] i ++ (c ++ trailOf n i)) := by
  obtain ⟨d, r, hd, hfirst⟩ := hc.first
  obtain ⟨u, e, he, hlast⟩ := hc.last
  constructor
  · unfold SpacedBefore leadOf
    by_cases hi : i = 0
    · rw [if_pos hi, if_pos hi, hd]
      intro hprefix
      exact ne_space_of_not_isBlank hfirst (List.cons_prefix_cons.1 hprefix).1.symm
    · rw [if_neg hi, if_neg hi, hd]
      refine ⟨List.prefix_append _ _, fun hprefix => ?_⟩
      have htwo := (List.cons_prefix_cons.1 hprefix).2
      exact ne_space_of_not_isBlank hfirst (List.cons_prefix_cons.1 htwo).1.symm
  · intro hi
    have hshape : leadOf [] i ++ (c ++ trailOf n i) = (leadOf [] i ++ u ++ [e]) ++ [space] := by
      rw [trailOf, if_pos hi, he]
      simp
    rw [hshape]
    refine ⟨List.suffix_append _ _, ?_⟩
    rintro ⟨w, hw⟩
    have htwo : (w ++ [space]) ++ [space] = (leadOf [] i ++ u ++ [e]) ++ [space] := by
      rw [← hw, List.append_assoc]
      rfl
    have hone := (List.append_inj' htwo rfl).1
    have hspace := List.singleton_inj.1 (List.append_inj' hone rfl).2
    exact ne_space_of_not_isBlank hlast hspace.symm

theorem allSpaced_framed {cs : List Text} (hcs : ∀ c ∈ cs, Joinable c) :
    AllSpaced (framed [] cs) := by
  intro i p hp
  rw [getElem?_framed, Option.map_eq_some_iff] at hp
  obtain ⟨c, hc, rfl⟩ := hp
  rw [length_framed]
  exact spaced_of_trimmed (hcs c (List.mem_of_getElem? hc)).trimmed _ i

/-- The sections are what trimming leaves of the pieces. -/
theorem map_trim_framed {cs : List Text} (hcs : ∀ c ∈ cs, Joinable c) :
    (framed [] cs).map Text.trim = cs := by
  apply List.ext_getElem?
  intro i
  rw [List.getElem?_map, getElem?_framed, Option.map_map]
  cases hc : cs[i]? with
  | none => rfl
  | some c =>
    have htrimmed := (hcs c (List.mem_of_getElem? hc)).trimmed
    exact congrArg some (Text.trim_append (blank_leadOf i) (blank_trailOf _ i) htrimmed)

/-! ## Reading -/

theorem joinSections_ne_nil {cs : List Text} (hcs : ∀ c ∈ cs, Joinable c) (hne : cs ≠ []) :
    joinSections cs ≠ [] := by
  intro hnil
  have hpieces := cut_iff.1 (cut_joinSections hcs hne)
  have hlen := length_framed [] cs
  rw [hnil] at hpieces
  rw [← hpieces] at hlen
  exact hne (List.length_eq_zero_iff.1 hlen.symm)

/-- Cutting and trimming undo the joining. -/
theorem cleanSegments_joinSections {cs : List Text} (hcs : ∀ c ∈ cs, Joinable c) :
    cleanSegments (segments (joinSections cs)) = .ok cs := by
  rcases eq_or_ne cs [] with rfl | hne
  · rfl
  · have hpieces := cut_iff.1 (cut_joinSections hcs hne)
    rw [cleanSegments_eq_ok_iff, hpieces]
    exact ⟨allSpaced_framed hcs, map_trim_framed hcs⟩

/-- The sections of joined texts are those of the texts. -/
theorem readSections_joinSections {cs : List Text} {ss : List Section}
    (hcs : ∀ c ∈ cs, Joinable c)
    (hread : List.Forall₂ (fun t c => Section.read t = .ok c) cs ss) :
    Request.readSections (joinSections cs) = .ok ss := by
  rw [Request.readSections, bind_eq_ok_iff]
  exact ⟨cs, cleanSegments_joinSections hcs, mapM_eq_ok_iff.2 hread⟩

end RequestLine
