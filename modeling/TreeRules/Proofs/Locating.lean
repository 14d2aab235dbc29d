import Mathlib.Data.List.Basic
import Mathlib.Data.List.Induction
import TreeRules.Log.FileSystem

/-!
# Ways through the file system

What a route leads to is found by a walk, one step after the other. A walk only looks at directories
and links on its way, so it stays the same when regular files come and go.
-/

namespace TreeRules.Log

namespace Route

theorem steps_withoutStays (route : Route) :
    ∃ count, route.steps = route.withoutStays.steps ++ List.replicate count .stay := by
  obtain ⟨fromRoot, parts⟩ := route
  induction parts using List.reverseRecOn with
  | nil => exact ⟨0, rfl⟩
  | append_singleton parts part ih =>
      by_cases hpart : stepOf part = .stay
      · obtain ⟨count, hcount⟩ := ih
        have hsame : withoutStays ⟨fromRoot, parts ++ [part]⟩ = withoutStays ⟨fromRoot, parts⟩ := by
          simp [withoutStays, hpart]
        have hsteps : steps ⟨fromRoot, parts ++ [part]⟩ = steps ⟨fromRoot, parts⟩ ++ [.stay] := by
          simp [steps, hpart]
        refine ⟨count + 1, ?_⟩
        rw [hsteps, hsame, hcount, List.replicate_succ', List.append_assoc]
      · exact ⟨0, by simp [withoutStays, hpart]⟩

/-- The way along a route is the way to its parent, one more step, and whatever leads nowhere else. -/
theorem steps_eq_of_lastMove? {route : Route} {last : Step} (h : route.lastMove? = some last) :
    ∃ before behind, route.steps =
      route.parent.steps ++ (List.replicate before .stay ++ last :: List.replicate behind .stay) := by
  obtain ⟨behind, hbehind⟩ := route.steps_withoutStays
  obtain ⟨before, hbefore⟩ :=
    steps_withoutStays { route.withoutStays with parts := route.withoutStays.parts.dropLast }
  have hlast : route.withoutStays.steps =
      steps { route.withoutStays with parts := route.withoutStays.parts.dropLast } ++ [last] := by
    rw [← List.dropLast_append_getLast? last h]
    simp [steps, List.map_dropLast]
  refine ⟨before, behind, ?_⟩
  rw [hbehind, hlast, hbefore]
  simp [parent]

end Route

namespace FileSystem

/-- The steps lead from one directory to a path, with some of the links left. If a missing entry is
allowed, the last step may lead to a name that nothing has. -/
inductive Walk (files : FileSystem) (missing : Bool) : Nat → Path → List Step → Nat → Path → Prop where
  | done {links : Nat} {here : Path} : Walk files missing links here [] links here
  | stay {links rest : Nat} {here path : Path} {steps : List Step} :
      files.lookup? here = some .directory → Walk files missing links here steps rest path →
        Walk files missing links here (.stay :: steps) rest path
  | up {links rest : Nat} {here path : Path} {steps : List Step} :
      files.lookup? here = some .directory → Walk files missing links here.dropLast steps rest path →
        Walk files missing links here (.up :: steps) rest path
  | down {links rest : Nat} {here path : Path} {steps : List Step} {name : FileName}
      {entry : FileEntry} :
      files.lookup? here = some .directory → name.size ≤ FileName.sizeLimit →
        files.lookup? (here ++ [name]) = some entry → (∀ target, entry ≠ .link target) →
        Walk files missing links (here ++ [name]) steps rest path →
        Walk files missing links here (.down name :: steps) rest path
  | link {links rest : Nat} {here path : Path} {steps : List Step} {name : FileName}
      {target : String} :
      files.lookup? here = some .directory → name.size ≤ FileName.sizeLimit →
        files.lookup? (here ++ [name]) = some (.link target) →
        Walk files missing links (if (Route.ofString target).fromRoot then [] else here)
          ((Route.ofString target).steps ++ steps) rest path →
        Walk files missing (links + 1) here (.down name :: steps) rest path
  | new {links : Nat} {here : Path} {name : FileName} :
      missing = true → files.lookup? here = some .directory → name.size ≤ FileName.sizeLimit →
        files.lookup? (here ++ [name]) = none →
        Walk files missing links here [.down name] links (here ++ [name])

variable {files files' : FileSystem} {missing : Bool} {links rest : Nat} {here path : Path}
  {steps more : List Step}

theorem lookup?_insert_of_some {entry held : FileEntry} {other : Path}
    (h : files.lookup? other = some held) : (files.insert path entry).lookup? other = some held := by
  unfold lookup? insert at *
  split at h
  · rw [if_pos ‹_›, h]
  · rw [if_neg ‹_›, List.lookup_append, h]
    rfl

theorem lookup?_insert_self {entry : FileEntry} (h : files.lookup? path = none) :
    (files.insert path entry).lookup? path = some entry := by
  unfold lookup? insert at *
  split at h
  · cases h
  · rw [if_neg ‹_›, List.lookup_append, h, List.lookup_cons_self]
    rfl

theorem exists_walk (h : files.resolve missing links here steps = .ok path) :
    ∃ rest, files.Walk missing links here steps rest path := by
  fun_induction resolve files missing links here steps with
  | case1 =>
      cases h
      exact ⟨_, .done⟩
  | case2 links here steps hhere ih =>
      obtain ⟨rest, hwalk⟩ := ih h
      exact ⟨rest, .stay hhere hwalk⟩
  | case3 links here steps hhere ih =>
      obtain ⟨rest, hwalk⟩ := ih h
      exact ⟨rest, .up hhere hwalk⟩
  | case5 links here steps hhere name hsize hnone hlast =>
      cases h
      simp only [Bool.and_eq_true, List.isEmpty_iff] at hlast
      obtain ⟨hmissing, rfl⟩ := hlast
      exact ⟨links, .new hmissing hhere (Nat.le_of_not_lt hsize) hnone⟩
  | case8 here steps hhere name hsize target links htarget _ ih =>
      obtain ⟨rest, hwalk⟩ := ih h
      exact ⟨rest, .link hhere (Nat.le_of_not_lt hsize) htarget hwalk⟩
  | case9 here steps hhere name hsize entry links hlast hlink hentry ih =>
      obtain ⟨rest, hwalk⟩ := ih h
      refine ⟨rest, .down hhere (Nat.le_of_not_lt hsize) hentry (fun target heq => ?_) hwalk⟩
      cases links with
      | zero => exact hlast target rfl heq
      | succ links => exact hlink target links rfl heq
  | case4 | case6 | case7 | case10 | case11 => cases h

theorem resolve_down {name : FileName} {entry : FileEntry}
    (hhere : files.lookup? here = some .directory) (hsize : name.size ≤ FileName.sizeLimit)
    (hentry : files.lookup? (here ++ [name]) = some entry) (hlink : ∀ target, entry ≠ .link target) :
    files.resolve missing links here (.down name :: steps) =
      files.resolve missing links (here ++ [name]) steps := by
  rw [resolve.eq_def]
  simp only [hhere, if_neg (Nat.not_lt.mpr hsize), hentry]
  cases entry with
  | link target => exact absurd rfl (hlink target)
  | file | directory => rfl

theorem resolve_link {name : FileName} {target : String}
    (hhere : files.lookup? here = some .directory) (hsize : name.size ≤ FileName.sizeLimit)
    (htarget : files.lookup? (here ++ [name]) = some (.link target)) :
    files.resolve missing (links + 1) here (.down name :: steps) =
      files.resolve missing links (if (Route.ofString target).fromRoot then [] else here)
        ((Route.ofString target).steps ++ steps) := by
  rw [resolve.eq_def]
  simp only [hhere, if_neg (Nat.not_lt.mpr hsize), htarget]

namespace Walk

/-- After a walk, the rest of the steps is followed from where it ended. -/
theorem resolve_append (h : files.Walk false links here steps rest path) (more : List Step) :
    files.resolve missing links here (steps ++ more) = files.resolve missing rest path more := by
  induction h with
  | done => rfl
  | stay hhere _ ih => simp only [List.cons_append, resolve, hhere, ih]
  | up hhere _ ih => simp only [List.cons_append, resolve, hhere, ih]
  | down hhere hsize hentry hlink _ ih =>
      rw [List.cons_append, resolve_down hhere hsize hentry hlink, ih]
  | link hhere hsize htarget _ ih =>
      rw [List.cons_append, resolve_link hhere hsize htarget, ← List.append_assoc, ih]
  | new => contradiction

theorem resolve_eq (h : files.Walk missing links here steps rest path) :
    files.resolve missing links here steps = .ok path := by
  induction h with
  | done => rw [resolve]
  | stay hhere _ ih => simp only [resolve, hhere, ih]
  | up hhere _ ih => simp only [resolve, hhere, ih]
  | down hhere hsize hentry hlink _ ih => rw [resolve_down hhere hsize hentry hlink, ih]
  | link hhere hsize htarget _ ih => rw [resolve_link hhere hsize htarget, ih]
  | new hmissing hhere hsize hnone =>
      rw [resolve.eq_def]
      simp [hmissing, hhere, hnone, Nat.not_lt.mpr hsize]

/-- A walk pauses between any two of its steps. -/
theorem exists_pause (h : files.Walk false links here (steps ++ more) rest path) :
    ∃ between mid, files.Walk false links here steps between mid ∧
      files.Walk false between mid more rest path := by
  generalize hall : steps ++ more = all at h
  induction h generalizing steps with
  | done =>
      obtain ⟨rfl, rfl⟩ := List.append_eq_nil_iff.mp hall
      exact ⟨_, _, .done, .done⟩
  | stay hhere hwalk ih =>
      rcases steps with _ | ⟨step, steps⟩
      · obtain rfl : more = _ := hall
        exact ⟨_, _, .done, .stay hhere hwalk⟩
      · obtain ⟨rfl, rfl⟩ := List.cons.inj hall
        obtain ⟨between, mid, hfirst, hsecond⟩ := ih rfl
        exact ⟨between, mid, .stay hhere hfirst, hsecond⟩
  | up hhere hwalk ih =>
      rcases steps with _ | ⟨step, steps⟩
      · obtain rfl : more = _ := hall
        exact ⟨_, _, .done, .up hhere hwalk⟩
      · obtain ⟨rfl, rfl⟩ := List.cons.inj hall
        obtain ⟨between, mid, hfirst, hsecond⟩ := ih rfl
        exact ⟨between, mid, .up hhere hfirst, hsecond⟩
  | down hhere hsize hentry hlink hwalk ih =>
      rcases steps with _ | ⟨step, steps⟩
      · obtain rfl : more = _ := hall
        exact ⟨_, _, .done, .down hhere hsize hentry hlink hwalk⟩
      · obtain ⟨rfl, rfl⟩ := List.cons.inj hall
        obtain ⟨between, mid, hfirst, hsecond⟩ := ih rfl
        exact ⟨between, mid, .down hhere hsize hentry hlink hfirst, hsecond⟩
  | link hhere hsize htarget hwalk ih =>
      rcases steps with _ | ⟨step, steps⟩
      · obtain rfl : more = _ := hall
        exact ⟨_, _, .done, .link hhere hsize htarget hwalk⟩
      · obtain ⟨rfl, rfl⟩ := List.cons.inj hall
        obtain ⟨between, mid, hfirst, hsecond⟩ := ih (List.append_assoc _ _ _)
        exact ⟨between, mid, .link hhere hsize htarget hfirst, hsecond⟩
  | new hmissing => cases hmissing

/-- A walk to a directory takes no notice of regular files. -/
theorem of_others (hothers : ∀ path entry, files.lookup? path = some entry →
      (∀ content modified, entry ≠ .file content modified) → files'.lookup? path = some entry)
    (h : files.Walk false links here steps rest path)
    (hpath : files.lookup? path = some .directory) :
    files'.Walk false links here steps rest path := by
  induction h with
  | done => exact .done
  | stay hhere _ ih => exact .stay (hothers _ _ hhere nofun) (ih hpath)
  | up hhere _ ih => exact .up (hothers _ _ hhere nofun) (ih hpath)
  | @down links rest here path steps name entry hhere hsize hentry hlink hwalk ih =>
      refine .down (hothers _ _ hhere nofun) hsize (hothers _ _ hentry ?_) hlink (ih hpath)
      rintro content modified rfl
      -- Nothing is reached over a regular file.
      cases hwalk <;> simp_all
  | link hhere hsize htarget _ ih =>
      exact .link (hothers _ _ hhere nofun) hsize (hothers _ _ htarget nofun) (ih hpath)
  | new hmissing => cases hmissing

/-- Once the missing entry is there, the same walk leads to it. -/
theorem insert {entry : FileEntry} (hentry : ∀ target, entry ≠ .link target)
    (h : files.Walk missing links here steps rest path) (hpath : files.lookup? path = none) :
    (files.insert path entry).Walk false links here steps rest path := by
  have hkept {other held} (h : files.lookup? other = some held) :
      (files.insert path entry).lookup? other = some held := lookup?_insert_of_some h
  induction h with
  | done => exact .done
  | stay hhere _ ih => exact .stay (hkept hhere) (ih hpath hkept)
  | up hhere _ ih => exact .up (hkept hhere) (ih hpath hkept)
  | down hhere hsize hheld hlink _ ih =>
      exact .down (hkept hhere) hsize (hkept hheld) hlink (ih hpath hkept)
  | link hhere hsize htarget _ ih =>
      exact .link (hkept hhere) hsize (hkept htarget) (ih hpath hkept)
  | new _ hhere hsize hnone =>
      exact .down (hkept hhere) hsize (lookup?_insert_self hpath) hentry .done

theorem of_isSome (h : files.Walk missing links here steps rest path)
    (hpath : files.lookup? path ≠ none) : files.Walk false links here steps rest path := by
  induction h with
  | done => exact .done
  | stay hhere _ ih => exact .stay hhere (ih hpath)
  | up hhere _ ih => exact .up hhere (ih hpath)
  | down hhere hsize hentry hlink _ ih => exact .down hhere hsize hentry hlink (ih hpath)
  | link hhere hsize htarget _ ih => exact .link hhere hsize htarget (ih hpath)
  | new _ _ _ hnone => exact absurd hnone hpath

end Walk

section Routes

variable {route : Route}

theorem follow_eq_ok_iff : files.follow missing route = .ok path ↔
    route.isTooLong = false ∧ ∃ rest, files.Walk missing linkLimit [] route.steps rest path := by
  unfold follow
  split
  · simp [‹route.isTooLong = true›]
  · constructor
    · intro h
      exact ⟨eq_false_of_ne_true ‹_›, exists_walk h⟩
    · rintro ⟨-, rest, hwalk⟩
      exact hwalk.resolve_eq

theorem locate_of_follow (h : files.follow missing route = .ok path)
    (hpath : files.lookup? path ≠ none) : files.locate route = .ok path := by
  obtain ⟨hshort, rest, hwalk⟩ := follow_eq_ok_iff.mp h
  exact follow_eq_ok_iff.mpr ⟨hshort, rest, hwalk.of_isSome hpath⟩

theorem locate_insert {entry : FileEntry} (hentry : ∀ target, entry ≠ .link target)
    (h : files.follow missing route = .ok path) (hpath : files.lookup? path = none) :
    (files.insert path entry).locate route = .ok path := by
  obtain ⟨hshort, rest, hwalk⟩ := follow_eq_ok_iff.mp h
  exact follow_eq_ok_iff.mpr ⟨hshort, rest, hwalk.insert hentry hpath⟩

/-- A directory stays where it is, whatever regular files come and go. -/
theorem locate_of_others (hothers : ∀ path entry, files.lookup? path = some entry →
      (∀ content modified, entry ≠ .file content modified) → files'.lookup? path = some entry)
    (h : files.locate route = .ok path) (hpath : files.lookup? path = some .directory) :
    files'.locate route = .ok path := by
  obtain ⟨hshort, rest, hwalk⟩ := follow_eq_ok_iff.mp h
  exact follow_eq_ok_iff.mpr ⟨hshort, rest, hwalk.of_others hothers hpath⟩

theorem exists_steps_child (route : Route) (name : String) : ∃ before,
    (route.child name).steps = before ++ [Route.stepOf name] ∧
      (route.steps = before ∨ route.steps = before ++ [.stay]) := by
  obtain ⟨fromRoot, parts⟩ := route
  unfold Route.child Route.steps
  rcases List.eq_nil_or_concat parts with rfl | ⟨parts, part, rfl⟩
  · exact ⟨[], rfl, .inl rfl⟩
  · by_cases hpart : part = ""
    · refine ⟨parts.map Route.stepOf, ?_, .inr ?_⟩ <;> simp [hpart, Route.stepOf]
    · refine ⟨(parts ++ [part]).map Route.stepOf, ?_, .inl ?_⟩ <;> simp [hpart]

/-- The way to an entry of a directory is the way to the directory and one more step. -/
theorem resolve_child {directory : Path} (hdirectory : files.locate route = .ok directory)
    (name : String) : ∃ left, files.resolve missing linkLimit [] (route.child name).steps =
      files.resolve missing left directory [Route.stepOf name] := by
  obtain ⟨before, hchild, hroute⟩ := exists_steps_child route name
  obtain ⟨-, left, hwalk⟩ := follow_eq_ok_iff.mp hdirectory
  rw [hchild]
  rcases hroute with hroute | hroute <;> rw [hroute] at hwalk
  · exact ⟨left, hwalk.resolve_append _⟩
  · obtain ⟨between, mid, hfirst, hsecond⟩ := hwalk.exists_pause
    cases hsecond with
    | stay _ hdone => cases hdone; exact ⟨_, hfirst.resolve_append _⟩

variable {directory : Path} {name : String} (hname : Route.stepOf name = .down (.text name))
  (hdirectory : files.locate route = .ok directory)

include hname hdirectory

/-- The way on from a directory to one of its entries ends there, unless the entry is a link. -/
theorem follow_child (h : files.follow missing (route.child name) = .ok path) :
    path = directory ++ [.text name] ∨
      ∃ target, files.lookup? (directory ++ [.text name]) = some (.link target) := by
  obtain ⟨-, rest, hwalk⟩ := follow_eq_ok_iff.mp h
  obtain ⟨left, hlast⟩ := @resolve_child _ missing _ _ hdirectory name
  rw [hwalk.resolve_eq, hname] at hlast
  obtain ⟨rest, hstep⟩ := exists_walk hlast.symm
  cases hstep with
  | down _ _ _ _ hdone => cases hdone; exact .inl rfl
  | link _ _ htarget _ => exact .inr ⟨_, htarget⟩
  | new => exact .inl rfl

/-- A name that nothing in the directory has can be taken. -/
theorem follow_child_new (hthere : files.lookup? directory = some .directory)
    (hshort : (route.child name).isTooLong = false)
    (hsize : (FileName.text name).size ≤ FileName.sizeLimit)
    (hfree : files.lookup? (directory ++ [.text name]) = none) :
    files.follow true (route.child name) = .ok (directory ++ [.text name]) := by
  obtain ⟨left, hlast⟩ := @resolve_child _ true _ _ hdirectory name
  have hnew : files.Walk true left directory [.down (.text name)] left (directory ++ [.text name]) :=
    .new rfl hthere hsize hfree
  rw [follow, hshort, hlast, hname, hnew.resolve_eq]
  rfl

omit hname hdirectory

theorem resolve_stays (h : files.lookup? here = some .directory) (count : Nat) (more : List Step) :
    files.resolve missing links here (List.replicate count .stay ++ more) =
      files.resolve missing links here more := by
  induction count with
  | zero => rfl
  | succ count ih => simp only [List.replicate_succ, List.cons_append, resolve, h, ih]

/-- A route leads to a directory that is the last step away from where its parent leads. -/
theorem locate_of_parent {parent : Path} {name : FileName} (hshort : route.isTooLong = false)
    (hlast : route.lastMove? = some (.down name)) (hparent : files.locate route.parent = .ok parent)
    (hdirectory : files.lookup? parent = some .directory) (hsize : name.size ≤ FileName.sizeLimit)
    (hentry : files.lookup? (parent ++ [name]) = some .directory) :
    files.locate route = .ok (parent ++ [name]) := by
  obtain ⟨before, behind, hsteps⟩ := Route.steps_eq_of_lastMove? hlast
  obtain ⟨-, rest, hwalk⟩ := follow_eq_ok_iff.mp hparent
  have hbehind := @resolve_stays _ false rest _ hentry behind []
  rw [List.append_nil] at hbehind
  rw [locate, follow, hshort, hsteps, hwalk.resolve_append, resolve_stays hdirectory,
    resolve_down hdirectory hsize hentry nofun, hbehind, resolve]
  rfl

end Routes

end FileSystem

end TreeRules.Log
