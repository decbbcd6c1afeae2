import LedSwitch.Proofs.FileSystem.Directories

/-!
The directories above a file. What is left of a path without its last components is a beginning of its text
(`Path.prefix_of_mem_ancestors`), and a directory is found by the path by which it was made. So where directories
above a file were made, each new one has a beginning of the path as its name (`FileSystem.GrowsAbove`).
-/

namespace LedSwitch

namespace Path

theorem trimReversed_suffix (text : List Char) : trimReversed text <:+ text := by
  fun_induction trimReversed text with
  | case1 | case2 | case5 => exact List.suffix_refl _
  | case3 rest _ ih => exact ih.trans (List.suffix_cons '/' rest)
  | case4 c rest _ _ ih => exact ih.trans (List.suffix_cons c rest)

variable {path above : String}

theorem prefix_of_parent? (h : parent? path = some above) : above.toList <+: path.toList := by
  rw [parent?] at h
  split_ifs at h
  obtain rfl := Option.some.inj h
  have htrimmed := trimReversed_suffix path.toList.reverse
  have hcut := List.dropWhile_suffix (l := trimReversed path.toList.reverse) (· ≠ '/')
  have hsuffix := ((trimReversed_suffix _).trans hcut).trans htrimmed
  rw [String.toList_ofList, ← List.reverse_suffix, List.reverse_reverse]
  exact hsuffix

theorem prefix_of_mem_ancestors (h : above ∈ ancestors path) : above.toList <+: path.toList := by
  rw [ancestors] at h
  generalize path.length + 1 = count at h
  induction count generalizing path with
  | zero => cases h
  | succ count ih =>
    rw [ancestorsUpTo] at h
    cases hparent : parent? path with
    | none =>
      rw [hparent] at h
      obtain rfl := List.mem_singleton.1 h
      exact List.prefix_refl _
    | some parent =>
      rw [hparent] at h
      rcases List.mem_cons.1 h with rfl | h
      · exact List.prefix_refl _
      · exact (ih h).trans (prefix_of_parent? hparent)

end Path

namespace FileSystem

variable {fs fs' : FileSystem} {path : String} {location : Location}

/-- The steps to a new directory lead to it once it is made. -/
theorem Leads.look_of_made {links : Nat} {steps : List Step} {here : Location} {slash : Bool} {place : Place}
    (hkeeps : Keeps fs fs') (hmade : fs'.get? place.location = some .directory)
    (h : Leads fs .entry links steps here slash place) (hfree : place.found = none) :
    Leads fs' .look links steps here slash ⟨place.location, some .directory⟩ := by
  induction h with
  | arrive => cases hfree
  | stay _ ih => exact .stay (ih hmade hfree)
  | up _ ih => exact .up (ih hmade hfree)
  | into hrest hname hentry _ ih => exact .into hrest hname (hkeeps _ _ hentry) (ih hmade hfree)
  | link _ hname hentry _ ih => exact .link (by simp) hname (hkeeps _ _ hentry) (ih hmade hfree)
  | free links _ _ hname _ => exact .entry links (by simp) (by simp) hname hmade
  | entry => cases hfree

/-- A directory is made where nothing was, and found by the same path. -/
theorem resolve_of_makeDirectory (h : fs.makeDirectory path = .ok fs') :
    ∃ location, fs' = fs.put location .directory ∧ fs.get? location = none ∧ location ≠ [] ∧
      fs'.resolve .look path = .ok ⟨location, some .directory⟩ := by
  have hkeeps := (grows_makeDirectory h).keeps
  rw [makeDirectory, make] at h
  cases hplace : fs.resolve .entry path with
  | error cause =>
    rw [hplace] at h
    cases h
  | ok place =>
    simp only [hplace, bind, Except.bind] at h
    split_ifs at h with hfound
    obtain rfl := Except.ok.inj h
    have hfree : place.found = none := by simpa using hfound
    obtain ⟨hlocation, hentry⟩ := get?_of_resolve hplace (by simp [hfree])
    refine ⟨place.location, rfl, hentry.trans hfree, hlocation, ?_⟩
    rw [resolve_eq_ok_iff] at hplace ⊢
    refine ⟨hplace.1, hplace.2.look_of_made hkeeps ?_ hfree⟩
    rw [get?_put fs _ _ hlocation, if_pos rfl]

/-- A tree grows by directories above the file at a path: each new one is found by what is left of the path's parent
    without some of its last components. -/
structure GrowsAbove (path : String) (fs fs' : FileSystem) : Prop extends Grows fs fs' where
  named : ∀ location, fs.get? location = none → fs'.get? location = some .directory →
    ∃ directory above, Path.parent? path = some directory ∧ above ∈ Path.ancestors directory ∧
      above.toList <+: directory.toList ∧ fs'.resolve .look above = .ok ⟨location, some .directory⟩

namespace GrowsAbove

theorem refl (path : String) (fs : FileSystem) : GrowsAbove path fs fs := by
  refine ⟨Grows.refl fs, fun location hnone hdirectory => ?_⟩
  cases hnone.symm.trans hdirectory

theorem trans {fs'' : FileSystem} (h : GrowsAbove path fs fs') (h' : GrowsAbove path fs' fs'') :
    GrowsAbove path fs fs'' := by
  refine ⟨h.toGrows.trans h'.toGrows, fun location hnone hdirectory => ?_⟩
  rcases h.entries location with hsame | ⟨-, hmade⟩
  · exact h'.named location (hsame.trans hnone) hdirectory
  · obtain ⟨directory, above, hparent, habove, hstart, hfound⟩ := h.named location hnone hmade
    exact ⟨directory, above, hparent, habove, hstart, resolve_of_keeps h'.keeps h'.home hfound⟩

end GrowsAbove

/-- Making the directories above a file lets the tree grow above it. -/
theorem Makes.growsAbove {directory : String} (hparent : Path.parent? path = some directory)
    (h : Makes (Path.ancestors directory) fs fs') : GrowsAbove path fs fs' := by
  induction h with
  | refl => exact GrowsAbove.refl path fs
  | tail _ hstep ih =>
    obtain ⟨above, habove, hmake⟩ := hstep
    refine ih.trans ⟨grows_makeDirectory hmake, fun location hnone hdirectory => ?_⟩
    obtain ⟨made, rfl, -, hmade, hfound⟩ := resolve_of_makeDirectory hmake
    rw [get?_put _ _ _ hmade] at hdirectory
    split_ifs at hdirectory with hlocation
    · subst hlocation
      exact ⟨directory, above, hparent, habove, Path.prefix_of_mem_ancestors habove, hfound⟩
    · cases hnone.symm.trans hdirectory

end FileSystem

end LedSwitch
