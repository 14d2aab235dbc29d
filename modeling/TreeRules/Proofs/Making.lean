import Mathlib.Logic.Function.Iterate
import TreeRules.Proofs.Attempt
import TreeRules.Proofs.Locating

/-!
# Making directories

Whatever making directories comes to, all that is new are directories, and each stands where the
route or a route above it leads. They stay there, since a directory is in nobody's way.
-/

namespace TreeRules.Log

namespace FileM

variable {α β : Type} {files after : FileSystem}

theorem run_get_bind (next : FileSystem → FileM β) (files : FileSystem) :
    (get >>= next).run files = (next files).run files := rfl

section Looking

variable {look : FileSystem → Except FileError α} {route : Route} {path : Path}

theorem run_liftResult : (liftResult look).run files = (look files, files) := by
  unfold liftResult
  rw [run_get_bind]
  cases look files <;> rfl

theorem run_directoryAt : (directoryAt route).run files =
    (match files.locate route with
      | .error error => .error error
      | .ok path =>
        if files.lookup? path = some .directory then .ok path else .error .notDirectory, files) := by
  rw [directoryAt, run_bind, run_liftResult]
  rcases files.locate route with error | path
  · rfl
  · simp only [run_get_bind]
    rcases files.lookup? path with _ | _ | _ | _ <;> rfl

theorem run_directoryAt_ok : (directoryAt route).run files = (.ok path, after) ↔
    files.locate route = .ok path ∧ files.lookup? path = some .directory ∧ after = files := by
  rw [run_directoryAt]
  constructor
  · intro h
    obtain ⟨hfound, rfl⟩ := Prod.mk.inj h
    rcases hlocate : files.locate route with _ | located <;> simp only [hlocate] at hfound
    · cases hfound
    · split at hfound <;> cases hfound
      exact ⟨rfl, ‹_›, rfl⟩
  · rintro ⟨hlocate, hdirectory, rfl⟩
    simp only [hlocate, if_pos hdirectory]

end Looking

/-- One file system is another with some directories more, each where the route or a route above it
leads. -/
def Extends (route : Route) (made : List Path) (files after : FileSystem) : Prop :=
  after.entries = files.entries ++ made.map (fun path => (path, .directory)) ∧
    ∀ path ∈ made, after.lookup? path = some .directory ∧
      ∃ count, after.locate (Route.parent^[count] route) = .ok path

namespace Extends

variable {route : Route} {made more : List Path} {mid : FileSystem}

theorem refl (route : Route) (files : FileSystem) : Extends route [] files files :=
  ⟨(List.append_nil _).symm, by simp⟩

theorem lookup?_eq {path : Path} {entry : FileEntry} (h : Extends route made files after)
    (hpath : files.lookup? path = some entry) : after.lookup? path = some entry := by
  unfold FileSystem.lookup? at *
  split at hpath
  · rw [if_pos ‹_›, hpath]
  · rw [if_neg ‹_›, h.1, List.lookup_append, hpath]
    rfl

theorem trans (h : Extends route made files mid) (hafter : Extends route more mid after) :
    Extends route (made ++ more) files after := by
  refine ⟨by rw [hafter.1, h.1, List.map_append, List.append_assoc], ?_⟩
  intro path hpath
  rcases List.mem_append.mp hpath with hmade | hmore
  · obtain ⟨hthere, count, hlocate⟩ := h.2 path hmade
    have hothers (path entry) (hheld : mid.lookup? path = some entry)
        (_ : ∀ content modified, entry ≠ .file content modified) :
        after.lookup? path = some entry := hafter.lookup?_eq hheld
    exact ⟨hothers _ _ hthere nofun, count, FileSystem.locate_of_others hothers hlocate hthere⟩
  · exact hafter.2 path hmore

theorem of_parent (h : Extends route.parent made files after) : Extends route made files after := by
  refine ⟨h.1, fun path hpath => ?_⟩
  obtain ⟨hthere, count, hlocate⟩ := h.2 path hpath
  exact ⟨hthere, count + 1, hlocate⟩

end Extends

/-- Whether it fails or not, the action makes directories and changes nothing else. -/
def OnlyMakes (route : Route) (action : FileM α) : Prop :=
  ∀ files, ∃ made, Extends route made files (action.run files).2

namespace OnlyMakes

variable {route : Route}

theorem of_snd_eq {action : FileM α} (h : ∀ files, (action.run files).2 = files) :
    OnlyMakes route action := by
  intro files
  rw [h]
  exact ⟨[], .refl route files⟩

theorem failed (error : FileError) : OnlyMakes route (throw error : FileM α) :=
  of_snd_eq fun _ => rfl

theorem bind {action : FileM α} {next : α → FileM β} (haction : OnlyMakes route action)
    (hnext : ∀ value, OnlyMakes route (next value)) : OnlyMakes route (action >>= next) := by
  intro files
  obtain ⟨made, hfirst⟩ := haction files
  rw [run_bind]
  rcases hrun : action.run files with ⟨_ | value, mid⟩ <;> rw [hrun] at hfirst
  · exact ⟨made, hfirst⟩
  · obtain ⟨more, hsecond⟩ := hnext value mid
    exact ⟨made ++ more, hfirst.trans hsecond⟩

theorem tryCatch {action : FileM α} {handle : FileError → FileM α}
    (haction : OnlyMakes route action) (hhandle : ∀ error, OnlyMakes route (handle error)) :
    OnlyMakes route (tryCatch action handle) := by
  intro files
  obtain ⟨made, hfirst⟩ := haction files
  rw [run_tryCatch]
  rcases hrun : action.run files with ⟨error | _, mid⟩ <;> rw [hrun] at hfirst
  · obtain ⟨more, hsecond⟩ := hhandle error mid
    exact ⟨made ++ more, hfirst.trans hsecond⟩
  · exact ⟨made, hfirst⟩

theorem orDirectory {action : FileM Unit} (h : OnlyMakes route action) (wanted : Route) :
    OnlyMakes route (orDirectory wanted action) := by
  apply tryCatch h
  intro error
  apply bind (of_snd_eq fun _ => rfl)
  intro files
  split
  · exact of_snd_eq fun _ => rfl
  · exact failed error

end OnlyMakes

/-- Making one directory changes nothing, or adds it to the directory where its parent is found. -/
theorem run_makeDirectory (route : Route) (files : FileSystem) :
    ((makeDirectory route).run files).2 = files ∨
    ∃ parent name, route.isTooLong = false ∧ route.lastMove? = some (.down name) ∧
      files.locate route.parent = .ok parent ∧ files.lookup? parent = some .directory ∧
      name.size ≤ FileName.sizeLimit ∧ files.lookup? (parent ++ [name]) = none ∧
      ((makeDirectory route).run files).2 = files.insert (parent ++ [name]) .directory := by
  simp only [makeDirectory]
  split
  · exact .inl rfl
  · split
    · exact .inl rfl
    · rename_i hshort _ last hlast
      rw [run_bind, run_directoryAt]
      rcases hparent : files.locate route.parent with error | parent
      · exact .inl rfl
      · by_cases hdirectory : files.lookup? parent = some .directory
        · simp only [if_pos hdirectory]
          cases last with
          | stay | up => exact .inl rfl
          | down name =>
              rcases Nat.lt_or_ge FileName.sizeLimit name.size with hsize | hsize
              · simp only [if_pos hsize]
                exact .inl rfl
              · simp only [if_neg (Nat.not_lt.mpr hsize), run_get_bind]
                rcases hheld : files.lookup? (parent ++ [name]) with _ | held
                · exact .inr ⟨parent, name, eq_false_of_ne_true hshort, hlast, rfl, hdirectory, hsize,
                    hheld, rfl⟩
                · exact .inl rfl
        · simp only [if_neg hdirectory, true_or]

theorem makeDirectory_onlyMakes (route : Route) : OnlyMakes route (makeDirectory route) := by
  intro files
  rcases run_makeDirectory route files with hsame |
    ⟨parent, name, hshort, hlast, hparent, hdirectory, hsize, hnone, hmade⟩
  · rw [hsame]
    exact ⟨[], .refl route files⟩
  · rw [hmade]
    have hmore (path entry) (h : files.lookup? path = some entry) :
        (files.insert (parent ++ [name]) .directory).lookup? path = some entry :=
      FileSystem.lookup?_insert_of_some h
    have hthere : (files.insert (parent ++ [name]) .directory).lookup? (parent ++ [name]) =
        some .directory := FileSystem.lookup?_insert_self hnone
    have hlocate : (files.insert (parent ++ [name]) .directory).locate route.parent = .ok parent :=
      FileSystem.locate_of_others (fun path entry h _ => hmore path entry h) hparent hdirectory
    refine ⟨[parent ++ [name]], rfl, fun path hpath => ?_⟩
    obtain rfl := List.mem_singleton.mp hpath
    exact ⟨hthere, 0,
      FileSystem.locate_of_parent hshort hlast hlocate (hmore _ _ hdirectory) hsize hthere⟩

theorem makeDirectoriesAbove_onlyMakes (depth : Nat) (route : Route) :
    OnlyMakes route (makeDirectoriesAbove depth route) := by
  induction depth generalizing route with
  | zero => exact (makeDirectory_onlyMakes route).orDirectory route
  | succ depth ih =>
      have habove : OnlyMakes route (makeDirectoriesAbove depth route.parent) := by
        intro files
        obtain ⟨made, hmade⟩ := ih route.parent files
        exact ⟨made, hmade.of_parent⟩
      apply OnlyMakes.orDirectory
      apply (makeDirectory_onlyMakes route).tryCatch
      intro error
      split
      · exact habove.bind fun _ => makeDirectory_onlyMakes route
      · exact .failed error

theorem makeDirectories_onlyMakes (route : Route) : OnlyMakes route (makeDirectories route) :=
  makeDirectoriesAbove_onlyMakes _ route

end FileM

end TreeRules.Log
