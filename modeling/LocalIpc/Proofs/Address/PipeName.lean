import LocalIpc.Address.PipeName
import LocalIpc.Proofs.Text.Split
/-!
# Paths and the pipes they stand for

Paths are compared by their components, and a pipe is named by the whole text of its path. So a path
stands for as many pipes as it has spellings.
-/

namespace LocalIpc

/-! ## Spellings of a path -/

namespace Path

/-- The part names something. -/
def IsName (part : Bytes) : Prop := part ≠ [] ∧ part ≠ [dot]

/-- The text of a part. -/
def shown (part : Bytes) : List Char := (Text.lossy part).toList

section Spellings

variable {p q : Path} {part : Bytes} {others : List Bytes}

/-- An absolute path has an empty part in front of its first separator. -/
theorem isAbsolute_iff : isAbsolute p = true ↔ ∃ others, others ≠ [] ∧ parts p = [] :: others := by
  cases p with
  | nil => simp [isAbsolute, parts, Text.split, eq_comm]
  | cons b p =>
    have hne := Text.split_ne_nil separator p
    simp only [isAbsolute, beq_iff_eq, parts, Text.split]
    constructor
    · intro hb
      exact ⟨_, hne, if_pos hb⟩
    · rintro ⟨others, -, h⟩
      by_contra hb
      rw [if_neg hb] at h
      split at h <;> simp at h

/-- A path has a name for its first component when its first part names something. -/
theorem head?_components_iff :
    (components p).head? = some (.name part) ↔ IsName part ∧ (parts p).head? = some part := by
  obtain ⟨first, others, hparts⟩ :=
    List.exists_cons_of_ne_nil (show parts p ≠ [] from Text.split_ne_nil separator p)
  rw [hparts, List.head?_cons, Option.some.injEq]
  have hnot : ¬ IsName first → ¬ (IsName part ∧ first = part) := fun hn ⟨hp, heq⟩ => hn (heq ▸ hp)
  by_cases habs : isAbsolute p = true
  · obtain ⟨others', -, hroot⟩ := isAbsolute_iff.mp habs
    have hempty : first = [] := (List.cons.inj (hparts.symm.trans hroot)).1
    exact iff_of_false (by simp [components, habs]) (hnot fun hn => hn.1 hempty)
  by_cases hdot : first = [dot]
  · exact iff_of_false (by simp [components, habs, hparts, hdot]) (hnot fun hn => hn.2 hdot)
  by_cases hempty : first = []
  · -- a path that is not absolute and has an empty first part is empty
    have hlast : others = [] := by
      by_contra hne
      exact habs (isAbsolute_iff.mpr ⟨others, hne, by rw [hparts, hempty]⟩)
    exact iff_of_false (by simp [components, names, habs, hparts, hempty, hlast])
      (hnot fun hn => hn.1 hempty)
  · have hname : IsName first := ⟨hempty, hdot⟩
    have hhead : (components p).head? = some (.name first) := by
      simp [components, names, habs, hparts, hempty, hdot]
    rw [hhead, Option.some.injEq, Component.name.injEq]
    exact ⟨fun heq => ⟨heq ▸ hname, heq⟩, And.right⟩

theorem names_eq_of_components_eq (h : components p = components q) : names p = names q := by
  have hnames : ∀ p, (components p).filterMap
      (fun c => match c with | .name n => some n | _ => none) = names p := by
    intro p
    unfold components
    split_ifs <;> simp [List.filterMap_map]
  rw [← hnames, h, hnames]

/-- Parts that are read alike are the same, or else both of them name something. -/
theorem eq_of_shown_eq {other : Bytes} (h : shown part = shown other) (hn : ¬ IsName part) :
    part = other := by
  have hread : Text.lossy other = Text.lossy part := String.toList_inj.mp h.symm
  have hplain : part = [] ∨ part = [dot] := by
    by_contra hne
    exact hn (not_or.mp hne)
  rcases hplain with rfl | rfl
  · exact (Text.eq_encode_of_lossy hread (by decide)).symm
  · exact (Text.eq_encode_of_lossy hread (by decide)).symm

theorem isName_iff_of_shown_eq {other : Bytes} (h : shown part = shown other) :
    IsName part ↔ IsName other := by
  constructor
  · intro hn
    by_contra hno
    exact hno (eq_of_shown_eq h.symm hno ▸ hn)
  · intro hn
    by_contra hno
    exact hno (eq_of_shown_eq h hno ▸ hn)

/-- Lists of parts that are read alike and have the same names are the same. -/
theorem parts_eq_of_shown_eq {xs ys : List Bytes} (hshown : xs.map shown = ys.map shown)
    (hnames : (xs.filter fun n => n ≠ [] ∧ n ≠ [dot]) = ys.filter fun n => n ≠ [] ∧ n ≠ [dot]) :
    xs = ys := by
  induction xs generalizing ys with
  | nil => exact (List.map_eq_nil_iff.mp hshown.symm).symm
  | cons x xs ih =>
    rcases ys with _ | ⟨y, ys⟩
    · simp at hshown
    obtain ⟨hxy, hrest⟩ := List.cons.inj hshown
    by_cases hx : IsName x
    · have hy : IsName y := (isName_iff_of_shown_eq hxy).mp hx
      rw [List.filter_cons_of_pos (by simpa [IsName] using hx),
        List.filter_cons_of_pos (by simpa [IsName] using hy)] at hnames
      obtain ⟨rfl, hothers⟩ := List.cons.inj hnames
      rw [ih hrest hothers]
    · obtain rfl := eq_of_shown_eq hxy hx
      rw [List.filter_cons_of_neg (by simpa [IsName] using hx),
        List.filter_cons_of_neg (by simpa [IsName] using hx)] at hnames
      rw [ih hrest hnames]

/-- The text of a path has the texts of its parts for parts. -/
theorem split_lossy (p : Path) : Text.split '/' (Text.lossy p).toList = (parts p).map shown :=
  Text.split_lossy (a := separator) (by decide) p

/-- A path that is the same as another and is read alike is spelled alike. -/
theorem eq_of_lossy_eq (hsame : p.same q = true) (h : Text.lossy p = Text.lossy q) : p = q := by
  have hparts : (parts p).map shown = (parts q).map shown := by
    rw [← split_lossy, h, split_lossy]
  exact Text.split_inj.mp
    (parts_eq_of_shown_eq hparts (names_eq_of_components_eq (beq_iff_eq.mp hsame)))

end Spellings

end Path

/-! ## Pipes of a path -/

namespace PipeName

variable {p q : Path}

/-- A path whose text begins with the namespace is no other spelling of the path without it. -/
theorem lossy_ne_of_same (hsame : p.same q = true) :
    Text.lossy p ≠ namespacePath ++ Text.lossy q := by
  intro h
  obtain ⟨first, others, hq⟩ :=
    List.exists_cons_of_ne_nil (show Path.parts q ≠ [] from Text.split_ne_nil Path.separator q)
  have hsplit := Path.split_lossy q
  rw [hq, List.map_cons] at hsplit
  have hp := Path.split_lossy p
  rw [h, String.toList_append, Text.split_append_left (by decide) hsplit] at hp
  obtain ⟨part, others', hparts⟩ := List.exists_cons_of_ne_nil
    (show Path.parts p ≠ [] from Text.split_ne_nil Path.separator p)
  rw [hparts, List.map_cons] at hp
  have hpart := congrArg List.length (List.cons.inj hp).1
  rw [List.length_append, show namespacePath.toList.length = 9 from rfl] at hpart
  -- the first part of the longer text names something, so it is the first of the other path too
  have hname : Path.IsName part := by
    constructor
    · rintro rfl
      rw [show (Path.shown []).length = 0 from rfl] at hpart
      omega
    · rintro rfl
      rw [show (Path.shown [Path.dot]).length = 1 from rfl] at hpart
      omega
  have hhead := Path.head?_components_iff.mpr ⟨hname, by rw [hparts]; rfl⟩
  rw [beq_iff_eq.mp hsame] at hhead
  obtain ⟨-, hfirst⟩ := Path.head?_components_iff.mp hhead
  rw [hq] at hfirst
  cases hfirst
  omega

/-- Two names have one full name when they are equal, or when one is the other with the namespace in
front. -/
theorem eq_or_eq_of_normalize_eq {m n : String} (h : normalize m = normalize n) :
    m = n ∨ m = namespacePath ++ n ∨ n = namespacePath ++ m := by
  unfold normalize at h
  split_ifs at h
  · exact .inl h
  · exact .inr (.inl h)
  · exact .inr (.inr h.symm)
  · exact .inl ((String.append_right_inj _).mp h)

/-- Paths that are the same stand for one pipe just when they are spelled alike. -/
theorem pipe_shared_iff_spelled_alike (p q : Path) (hsame : p.same q = true) :
    ofPath p = ofPath q ↔ p = q := by
  constructor
  · intro h
    rcases eq_or_eq_of_normalize_eq h with heq | hlonger | hlonger
    · exact Path.eq_of_lossy_eq hsame heq
    · exact absurd hlonger (lossy_ne_of_same hsame)
    · have hsame' : q.same p = true := beq_iff_eq.mpr (beq_iff_eq.mp hsame).symm
      exact absurd hlonger (lossy_ne_of_same hsame')
  · rintro rfl
    rfl

/-- A separator that does not count makes another pipe. -/
theorem two_pipes_of_one_path :
    let p : Path := Text.encode "a//b"
    let q : Path := Text.encode "a/b"
    p.same q = true ∧ ofPath p = "\\\\.\\pipe\\a//b" ∧ ofPath q = "\\\\.\\pipe\\a/b" ∧
      ofPath p ≠ ofPath q := by
  intro p q
  have hsame : p.same q = true := by decide
  exact ⟨hsame, by decide, by decide, mt (pipe_shared_iff_spelled_alike p q hsame).mp (by decide)⟩

end PipeName

end LocalIpc
