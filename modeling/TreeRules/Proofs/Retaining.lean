import Mathlib.Data.List.Forall2
import Mathlib.Tactic.NormNum
import TreeRules.Log.Setup
import TreeRules.Proofs.Making

/-!
# What is kept of the log

When the log is set up with a session file, the session logs that are too old are removed from the
log directory. Everything else stays as it is, wherever it stands; the directories that were missing
on the way and the session file are all that is new. What is written later goes to the end of the
session file.
-/

namespace TreeRules.Log

namespace FileM

variable {files after : FileSystem}

theorem run_openAppending_ok {route : Route} {now : Rat} {path : Path}
    (h : (openAppending route now).run files = (.ok path, after)) :
    files.follow true route = .ok path ∧
      (files.lookup? path = none ∧ after = files.insert path (.file "" now) ∨
        (∃ content modified, files.lookup? path = some (.file content modified)) ∧
          after = files) := by
  obtain ⟨found, mid, hfollow, h⟩ := bind_ok_iff.mp h
  rw [run_liftResult] at hfollow
  obtain ⟨hpath, rfl⟩ := Prod.mk.inj hfollow
  obtain ⟨_, _, hget, h⟩ := bind_ok_iff.mp h
  cases hget
  split at h
  · obtain ⟨_, _, hmodify, h⟩ := bind_ok_iff.mp h
    cases hmodify
    cases h
    exact ⟨hpath, .inl ⟨‹_›, rfl⟩⟩
  · cases h
    exact ⟨hpath, .inr ⟨⟨_, _, ‹_›⟩, rfl⟩⟩
  · cases h

theorem run_openAppending_new {route : Route} {now : Rat} {path : Path}
    (h : files.follow true route = .ok path) (hpath : files.lookup? path = none) :
    (openAppending route now).run files = (.ok path, files.insert path (.file "" now)) := by
  rw [openAppending, run_bind, run_liftResult, h]
  simp only
  rw [run_get_bind, hpath]
  rfl

end FileM

theorem lookup_filter {κ ν : Type} [BEq κ] [LawfulBEq κ] {keep : κ × ν → Bool}
    {held : List (κ × ν)} {key : κ} {value : ν} (h : held.lookup key = some value)
    (hkeep : keep (key, value) = true) : (held.filter keep).lookup key = some value := by
  induction held with
  | nil => cases h
  | cons first rest ih =>
      obtain ⟨other, here⟩ := first
      rw [List.lookup_cons] at h
      by_cases hkey : key = other
      · subst hkey
        rw [BEq.rfl] at h
        cases h
        rw [List.filter_cons_of_pos hkeep, List.lookup_cons_self]
      · rw [beq_false_of_ne hkey] at h
        rw [List.filter_cons]
        split
        · rw [List.lookup_cons, beq_false_of_ne hkey]
          exact ih h
        · exact ih h

theorem SystemM.run_onFiles {α : Type} (action : FileM α) (system : System) :
    (onFiles action).run system =
      ((action.run system.files).1, { system with files := (action.run system.files).2 }) := rfl

theorem SystemM.run_onFiles_ok {α : Type} {action : FileM α} {system last : System} {value : α}
    (h : (onFiles action).run system = (.ok value, last)) :
    ∃ files, action.run system.files = (.ok value, files) ∧ last = { system with files } := by
  rw [run_onFiles] at h
  obtain ⟨hvalue, rfl⟩ := Prod.mk.inj h
  exact ⟨_, Prod.ext hvalue rfl, rfl⟩

theorem FileSystem.mem_of_lookup? {files : FileSystem} {path : Path} {entry : FileEntry}
    (h : files.lookup? path = some entry) (hentry : entry ≠ .directory) :
    (path, entry) ∈ files.entries := by
  unfold lookup? at h
  split at h
  · exact absurd (Option.some.inj h).symm hentry
  · obtain ⟨before, behind, hentries, -⟩ := List.lookup_eq_some_iff.mp h
    rw [hentries]
    exact List.mem_append_right _ List.mem_cons_self

theorem FileSystem.not_mem_of_lookup? {files : FileSystem} {path : Path}
    (h : files.lookup? path = none) (entry : FileEntry) : (path, entry) ∉ files.entries := by
  unfold lookup? at h
  split at h
  · cases h
  · intro hmem
    have hne := List.lookup_eq_none_iff.mp h _ hmem
    simp at hne

namespace Retention

/-- A regular file in the directory that is named like a session log and has not changed for more
than seven days. -/
def Expired (now : Rat) (directory path : Path) (entry : FileEntry) : Prop :=
  ∃ (name content : String) (modified : Rat),
    path = directory ++ [.text name] ∧ entry = .file content modified ∧
    "session-".toList <+: name.toList ∧ ".log".toList <:+ name.toList ∧
    7 * 24 * 3600 < now - modified

variable {now : Rat} {directory path : Path} {entry : FileEntry}

theorem isSessionName_text_iff {name : String} : isSessionName (.text name) = true ↔
    "session-".toList <+: name.toList ∧ ".log".toList <:+ name.toList := by
  have hend : name.endsWith ".log" = true ↔ ".log".toList <:+ name.toList := by
    rw [← String.endsWith_toSlice, String.Slice.endsWith_string_iff, String.copy_toSlice]
  unfold isSessionName nameStart nameEnd
  rw [Bool.and_eq_true, String.startsWith_string_iff, hend]

theorem isExpiredIn_iff :
    isExpiredIn now directory path entry = true ↔ Expired now directory path entry := by
  have hlimit : limit = 7 * 24 * 3600 := by norm_num [limit]
  constructor
  · intro h
    unfold isExpiredIn at h
    split at h
    · cases h
    · rename_i last hlast
      simp only [Bool.and_eq_true, beq_iff_eq] at h
      obtain ⟨rfl, hexpired⟩ := h
      cases entry with
      | file content modified =>
          simp only [isExpired, Bool.and_eq_true, decide_eq_true_eq] at hexpired
          obtain ⟨hname, hage⟩ := hexpired
          cases last with
          | text name =>
              obtain ⟨hstart, hend⟩ := isSessionName_text_iff.mp hname
              exact ⟨name, content, modified, (List.dropLast_append_getLast? _ hlast).symm, rfl,
                hstart, hend, hlimit ▸ hage⟩
          | undecodable bytes => cases hname
      | directory | link target => cases hexpired
  · rintro ⟨name, content, modified, rfl, rfl, hstart, hend, hage⟩
    have hname := isSessionName_text_iff.mpr ⟨hstart, hend⟩
    simp [isExpiredIn, isExpired, hname, hlimit, hage]

theorem Expired.eq_file (h : Expired now directory path entry) :
    ∃ content modified, entry = .file content modified := by
  obtain ⟨_, content, modified, _, hentry, _⟩ := h
  exact ⟨content, modified, hentry⟩

/-- Of an expired log the console is told if and only if the log stays. -/
theorem isSome_complaint?_iff {route : Route} :
    (complaint? now route directory path entry).isSome = true ↔
      Expired now directory path entry ∧ isInReach route path = false := by
  constructor
  · intro h
    unfold complaint? at h
    split at h
    · split at h
      · rename_i hcondition
        rw [Bool.and_eq_true, Bool.not_eq_true'] at hcondition
        exact ⟨isExpiredIn_iff.mp hcondition.1, hcondition.2⟩
      · cases h
    · cases h
  · rintro ⟨hexpired, hreach⟩
    have hheld := isExpiredIn_iff.mpr hexpired
    obtain ⟨name, content, modified, rfl, -⟩ := hexpired
    simp [complaint?, hheld, hreach]

theorem lookup?_removeExpired_eq_none {route : Route} {files : FileSystem}
    (h : files.lookup? path = none) :
    (removeExpired now route directory files).lookup? path = none := by
  unfold FileSystem.lookup? removeExpired at *
  split at h
  · cases h
  · rw [if_neg ‹_›]
    rw [List.lookup_eq_none_iff] at h ⊢
    exact fun held hheld => h held (List.mem_of_mem_filter hheld)

/-- Cleaning up leaves directories and links in place. -/
theorem lookup?_removeExpired {route : Route} {files : FileSystem}
    (h : files.lookup? path = some entry)
    (hentry : ∀ content modified, entry ≠ .file content modified) :
    (removeExpired now route directory files).lookup? path = some entry := by
  have hkeep : isExpiredIn now directory path entry = false := by
    apply eq_false_of_ne_true
    intro hexpired
    obtain ⟨content, modified, heq⟩ := (isExpiredIn_iff.mp hexpired).eq_file
    exact hentry content modified heq
  unfold FileSystem.lookup? removeExpired at *
  split at h
  · rw [if_pos ‹_›, h]
  · rw [if_neg ‹_›]
    exact lookup_filter h (by simp [hkeep])

theorem removeExpired_removeExpired (now : Rat) (route : Route) (directory : Path)
    (files : FileSystem) : removeExpired now route directory (removeExpired now route directory files) =
      removeExpired now route directory files := by
  simp [removeExpired]

/-- A file that was just made is not expired. -/
theorem removeExpired_insert_new (now : Rat) (route : Route) (directory path : Path)
    (content : String) (files : FileSystem) :
    removeExpired now route directory (files.insert path (.file content now)) =
      (removeExpired now route directory files).insert path (.file content now) := by
  have hnew : isExpiredIn now directory path (.file content now) = false := by
    apply eq_false_of_ne_true
    intro h
    obtain ⟨_, _, _, -, heq, -, -, hage⟩ := isExpiredIn_iff.mp h
    cases heq
    norm_num at hage
  simp [removeExpired, FileSystem.insert, hnew]

end Retention

namespace Setup

open FileM

variable {application : Application} {environment : Environment} {clock : Clock} {process : Nat}
  {files after : FileSystem} {system last : System} {own : Path}

theorem run_openDirectory_ok {route : Route} {directory : Path}
    (h : (openDirectory route).run files = (.ok directory, after)) :
    ∃ made, Extends route made files after ∧ (files.isThere route = true → made = []) ∧
      after.locate route = .ok directory ∧ after.lookup? directory = some .directory := by
  simp only [openDirectory] at h
  rw [run_get_bind] at h
  split at h
  · rename_i hmissing
    obtain ⟨_, ready, hmade, h⟩ := bind_ok_iff.mp h
    obtain ⟨hlocate, hthere, rfl⟩ := run_directoryAt_ok.mp h
    obtain ⟨made, hextends⟩ := makeDirectories_onlyMakes route files
    rw [hmade] at hextends
    refine ⟨made, hextends, fun hthere => ?_, hlocate, hthere⟩
    rw [hthere] at hmissing
    cases hmissing
  · obtain ⟨hlocate, hthere, rfl⟩ := run_directoryAt_ok.mp h
    exact ⟨[], .refl route _, fun _ => rfl, hlocate, hthere⟩

theorem run_openSession_ok
    (h : (openSession application environment clock process).run system = (.ok own, last)) :
    let route := logRoute application environment
    ∃ ready directory made, Extends route made system.files ready ∧
      (system.files.isThere route = true → made = []) ∧
      ready.locate route = .ok directory ∧ ready.lookup? directory = some .directory ∧
      (openAppending (route.child (sessionName clock.calendar process)) clock.now).run
        (Retention.removeExpired clock.now route directory ready) = (.ok own, last.files) ∧
      last.receiver = system.receiver := by
  intro route
  obtain ⟨directory, _, hdirectory, h⟩ := bind_ok_iff.mp h
  obtain ⟨ready, hready, rfl⟩ := SystemM.run_onFiles_ok hdirectory
  obtain ⟨_, _, hcleaned, h⟩ := bind_ok_iff.mp h
  cases hcleaned
  obtain ⟨files, hopen, rfl⟩ := SystemM.run_onFiles_ok h
  obtain ⟨made, hextends, halready, hlocate, hthere⟩ := run_openDirectory_ok hready
  exact ⟨ready, directory, made, hextends, halready, hlocate, hthere, hopen, rfl⟩

theorem stepOf_sessionName (moment : Calendar) (process : Nat) :
    Route.stepOf (sessionName moment process) = .down (.text (sessionName moment process)) := by
  have hne (text : String) (htext : text.toList.head? ≠ some 's') :
      sessionName moment process ≠ text := by
    rintro rfl
    simp [sessionName, Retention.nameStart] at htext
  unfold Route.stepOf
  rw [if_neg (not_or.mpr ⟨hne "" (by simp), hne "." (by simp)⟩), if_neg (hne ".." (by simp))]

/-- What is left of the entries that were there, together with the directories that were made: all
but the expired session logs. -/
def Kept (now : Rat) (directory : Path) (made : List Path) (before : FileSystem) (path : Path)
    (entry : FileEntry) : Prop :=
  ((path, entry) ∈ before.entries ∨ path ∈ made ∧ entry = .directory) ∧
    ¬ Retention.Expired now directory path entry

/-- The files after the session file of the given name was opened: the log directory is found along
the route, the session file at its own path, and besides it there is what was kept. -/
structure Opened (now : Rat) (route : Route) (name : String) (directory own : Path)
    (made : List Path) (before after : FileSystem) : Prop where
  directory_located : after.locate route = .ok directory
  directory_there : after.lookup? directory = some .directory
  /-- Nothing is made if the log directory is there already. -/
  already_there : before.isThere route = true → before.locate route = .ok directory ∧ made = []
  /-- What is made stands where the route or a route above it leads. -/
  made_above : ∀ path ∈ made, ∃ count, after.locate (Route.parent^[count] route) = .ok path
  session_located : after.locate (route.child name) = .ok own
  session_there : ∃ content modified, after.lookup? own = some (.file content modified)
  /-- The session file stands in the log directory, unless there is a link under its name. -/
  session_place : own = directory ++ [.text name] ∨
    ∃ target, (directory ++ [.text name], .link target) ∈ before.entries
  /-- If all that is expired can be removed, what was kept is all there is, with a session file that
  is empty if none was kept. -/
  entries : (∀ path entry, (path, entry) ∈ before.entries →
      Retention.Expired now directory path entry → Retention.isInReach route path = true) →
    ∀ path entry, (path, entry) ∈ after.entries ↔
      Kept now directory made before path entry ∨
      path = own ∧ entry = .file "" now ∧ ∀ entry, ¬ Kept now directory made before own entry
  /-- There is nothing more to remove. -/
  settled : Retention.removeExpired now route directory after = after

theorem mem_removeExpired_iff {now : Rat} {route : Route} {directory : Path} {made : List Path}
    {ready : FileSystem}
    (hready : ready.entries = files.entries ++ made.map fun path => (path, .directory))
    (hreach : ∀ path entry, (path, entry) ∈ files.entries →
      Retention.Expired now directory path entry → Retention.isInReach route path = true)
    (path : Path) (entry : FileEntry) :
    (path, entry) ∈ (Retention.removeExpired now route directory ready).entries ↔
      Kept now directory made files path entry := by
  have hmem : (path, entry) ∈ ready.entries ↔
      (path, entry) ∈ files.entries ∨ path ∈ made ∧ entry = .directory := by
    simp [hready, eq_comm]
  unfold Retention.removeExpired Kept
  rw [List.mem_filter, hmem]
  refine and_congr_right fun hthere => ?_
  rw [Bool.not_eq_true', Bool.and_eq_false_iff, ← Retention.isExpiredIn_iff, Bool.not_eq_true]
  constructor
  · rintro (hkept | hfar)
    · exact hkept
    · apply eq_false_of_ne_true
      intro hexpired
      rcases hthere with hheld | ⟨-, rfl⟩
      · rw [hreach path entry hheld (Retention.isExpiredIn_iff.mp hexpired)] at hfar
        cases hfar
      · obtain ⟨_, _, heq⟩ := (Retention.isExpiredIn_iff.mp hexpired).eq_file
        cases heq
  · exact .inl

/-- The files once the log directory is there and cleaned up, with the way to the session file. -/
structure Cleaned (now : Rat) (route : Route) (name : String) (directory own : Path)
    (made : List Path) (before cleaned : FileSystem) : Prop where
  directory_located : cleaned.locate route = .ok directory
  directory_there : cleaned.lookup? directory = some .directory
  already_there : before.isThere route = true → before.locate route = .ok directory ∧ made = []
  made_there : ∀ path ∈ made, cleaned.lookup? path = some .directory ∧
    ∃ count, cleaned.locate (Route.parent^[count] route) = .ok path
  session_followed : cleaned.follow true (route.child name) = .ok own
  session_place : own = directory ++ [.text name] ∨
    ∃ target, (directory ++ [.text name], .link target) ∈ before.entries
  entries : (∀ path entry, (path, entry) ∈ before.entries →
      Retention.Expired now directory path entry → Retention.isInReach route path = true) →
    ∀ path entry, (path, entry) ∈ cleaned.entries ↔ Kept now directory made before path entry
  settled : Retention.removeExpired now route directory cleaned = cleaned

section Cleaned

variable {now : Rat} {route : Route} {name : String} {directory : Path} {made : List Path}
  {ready cleaned : FileSystem}

theorem cleaned_removeExpired (hextends : Extends route made files ready)
    (halready : files.isThere route = true → made = []) (hlocate : ready.locate route = .ok directory)
    (hthere : ready.lookup? directory = some .directory)
    (hname : Route.stepOf name = .down (.text name))
    (hfollow : (Retention.removeExpired now route directory ready).follow true (route.child name) =
      .ok own) :
    Cleaned now route name directory own made files
      (Retention.removeExpired now route directory ready) := by
  obtain ⟨hmade, habove⟩ := hextends
  have hothers (path entry) :=
    @Retention.lookup?_removeExpired now directory path entry route ready
  have hlocated := FileSystem.locate_of_others hothers hlocate hthere
  refine ⟨hlocated, hothers _ _ hthere nofun, fun h => ?_, fun path hpath => ?_, hfollow, ?_,
    mem_removeExpired_iff hmade, Retention.removeExpired_removeExpired now route directory ready⟩
  · obtain rfl := halready h
    have hsame : ready = files := by
      cases ready
      cases files
      simpa using hmade
    exact ⟨hsame ▸ hlocate, rfl⟩
  · obtain ⟨hheld, count, hfound⟩ := habove path hpath
    exact ⟨hothers _ _ hheld nofun, count, FileSystem.locate_of_others hothers hfound hheld⟩
  · rcases FileSystem.follow_child hname hlocated hfollow with hown | ⟨target, hlink⟩
    · exact .inl hown
    · have hready : (directory ++ [.text name], FileEntry.link target) ∈ ready.entries :=
        List.mem_of_mem_filter (FileSystem.mem_of_lookup? hlink nofun)
      simp only [hmade, List.mem_append, List.mem_map, Prod.mk.injEq, reduceCtorEq, and_false,
        exists_false, or_false] at hready
      exact .inr ⟨target, hready⟩

/-- The session file is a new one. -/
theorem Cleaned.opened_insert (h : Cleaned now route name directory own made files cleaned)
    (hnone : cleaned.lookup? own = none) :
    Opened now route name directory own made files (cleaned.insert own (.file "" now)) := by
  have hmore (path entry) (h : cleaned.lookup? path = some entry) :
      (cleaned.insert own (.file "" now)).lookup? path = some entry :=
    FileSystem.lookup?_insert_of_some h
  have hdirectories {route path} :=
    @FileSystem.locate_of_others cleaned _ path route fun path entry h _ => hmore path entry h
  exact {
    directory_located := hdirectories h.directory_located h.directory_there
    directory_there := hmore _ _ h.directory_there
    already_there := h.already_there
    made_above := by
      intro path hpath
      obtain ⟨hheld, count, hfound⟩ := h.made_there path hpath
      exact ⟨count, hdirectories hfound hheld⟩
    session_located := FileSystem.locate_insert nofun h.session_followed hnone
    session_there := ⟨"", now, FileSystem.lookup?_insert_self hnone⟩
    session_place := h.session_place
    entries := by
      intro hreach path entry
      have hown (entry) : ¬ Kept now directory made files own entry := by
        rw [← h.entries hreach]
        exact FileSystem.not_mem_of_lookup? hnone entry
      simp [FileSystem.insert, h.entries hreach, hown]
    settled := by rw [Retention.removeExpired_insert_new, h.settled] }

/-- The session file was there already, and was kept. -/
theorem Cleaned.opened (h : Cleaned now route name directory own made files cleaned)
    {content : String} {modified : Rat}
    (hheld : cleaned.lookup? own = some (.file content modified)) :
    Opened now route name directory own made files cleaned where
  directory_located := h.directory_located
  directory_there := h.directory_there
  already_there := h.already_there
  made_above path hpath := (h.made_there path hpath).2
  session_located := FileSystem.locate_of_follow h.session_followed (by simp [hheld])
  session_there := ⟨content, modified, hheld⟩
  session_place := h.session_place
  entries := by
    intro hreach path entry
    have hown := (h.entries hreach _ _).mp (FileSystem.mem_of_lookup? hheld nofun)
    rw [h.entries hreach]
    constructor
    · exact .inl
    · rintro (hkept | ⟨-, -, hnone⟩)
      · exact hkept
      · exact absurd hown (hnone _)
  settled := h.settled

end Cleaned

theorem opened_of_run_openSession
    (h : (openSession application environment clock process).run system = (.ok own, last)) :
    ∃ directory made, Opened clock.now (logRoute application environment)
      (sessionName clock.calendar process) directory own made system.files last.files := by
  obtain ⟨ready, directory, made, hextends, halready, hlocate, hthere, hopen, -⟩ :=
    run_openSession_ok h
  obtain ⟨hfollow, hopened⟩ := run_openAppending_ok hopen
  have hcleaned := cleaned_removeExpired hextends halready hlocate hthere
    (stepOf_sessionName clock.calendar process) hfollow
  refine ⟨directory, made, ?_⟩
  rcases hopened with ⟨hnone, hlast⟩ | ⟨⟨content, modified, hheld⟩, hlast⟩ <;> rw [hlast]
  · exact hcleaned.opened_insert hnone
  · exact hcleaned.opened hheld

end Setup

namespace FileSystem

/-- The entry is the same later, or it is the file at the path and something was written at its
end. -/
def Grown (changed : Option Path) (held later : Path × FileEntry) : Prop :=
  later = held ∨ changed = some held.1 ∧ ∃ content modified more modified',
    held.2 = .file content modified ∧ later = (held.1, .file (content ++ more) modified')

/-- Nothing has changed but the end of the file at a path, if any. -/
def GrownAt (changed : Option Path) (files after : FileSystem) : Prop :=
  List.Forall₂ (Grown changed) files.entries after.entries

variable {changed : Option Path} {files mid after : FileSystem}

theorem Grown.trans {held between later : Path × FileEntry} (h : Grown changed held between)
    (hlater : Grown changed between later) : Grown changed held later := by
  rcases h with rfl | ⟨hpath, content, modified, more, modified', hheld, rfl⟩
  · exact hlater
  · rcases hlater with rfl | ⟨-, _, _, more', modified'', hbetween, rfl⟩
    · exact .inr ⟨hpath, content, modified, more, modified', hheld, rfl⟩
    · cases hbetween
      refine .inr ⟨hpath, content, modified, more ++ more', modified'', hheld, ?_⟩
      rw [String.append_assoc]

theorem GrownAt.refl (changed : Option Path) (files : FileSystem) : files.GrownAt changed files :=
  List.forall₂_same.mpr fun _ _ => .inl rfl

theorem GrownAt.trans (h : files.GrownAt changed mid) (hafter : mid.GrownAt changed after) :
    files.GrownAt changed after := by
  unfold GrownAt at *
  generalize files.entries = held at h
  generalize mid.entries = between at h hafter
  generalize after.entries = later at hafter
  induction h generalizing later with
  | nil => cases hafter; exact .nil
  | cons hfirst _ ih =>
      cases hafter with
      | cons hsecond hrest => exact .cons (hfirst.trans hsecond) (ih _ hrest)

theorem grownAt_append (files : FileSystem) (path : Path) (text : String) (now : Rat) :
    files.GrownAt (some path) (files.append path text now) := by
  unfold GrownAt append update
  rw [List.forall₂_map_right_iff, List.forall₂_same]
  rintro ⟨held, entry⟩ -
  by_cases hpath : held = path
  · cases entry with
    | file content modified =>
        exact .inr ⟨by rw [hpath], content, modified, text, now, rfl, by simp [hpath]⟩
    | directory | link target => exact .inl (by simp [hpath])
  · exact .inl (by simp [hpath])

end FileSystem

namespace System

/-- The session file of whoever takes the messages. -/
def sessionFile? (system : System) : Option Path :=
  match system.receiver with
  | .nobody | .other => none
  | .logger logger => logger.sessionFile

variable (clock : Clock) (record : Record) (system : System)

theorem toConsole_eq (logger : Logger) : ∃ console,
    system.toConsole logger clock record = { system with console } := by
  unfold toConsole
  split
  · exact ⟨_, rfl⟩
  · exact ⟨system.console, rfl⟩

theorem receiver_log : (system.log clock record).receiver = system.receiver := by
  unfold log
  split
  · rfl
  · rfl
  · rename_i logger hlogger
    obtain ⟨console, hconsole⟩ := toConsole_eq clock record system logger
    rw [hconsole, toSession]
    split
    · rfl
    · split <;> rfl

/-- A message goes to the end of the session file, and to no other file. -/
theorem grownAt_log :
    system.files.GrownAt system.sessionFile? (system.log clock record).files := by
  unfold log sessionFile?
  rcases hreceiver : system.receiver with _ | _ | logger
  · exact .refl _ _
  · exact .refl _ _
  · obtain ⟨console, hconsole⟩ := toConsole_eq clock record system logger
    simp only [hconsole, toSession]
    rcases hpath : logger.sessionFile with _ | path
    · exact .refl _ _
    · simp only
      split
      · exact FileSystem.grownAt_append _ _ _ _
      · exact .refl _ _

/-- Messages are logged one after the other, each at its own time. -/
def logAll (messages : List (Clock × Record)) (system : System) : System :=
  messages.foldl (fun system message => system.log message.1 message.2) system

theorem grownAt_logAll (messages : List (Clock × Record)) (system : System) :
    system.files.GrownAt system.sessionFile? (system.logAll messages).files := by
  induction messages generalizing system with
  | nil => exact .refl _ _
  | cons message rest ih =>
      have hrest := ih (system.log message.1 message.2)
      have hsame : (system.log message.1 message.2).sessionFile? = system.sessionFile? := by
        rw [sessionFile?, receiver_log, sessionFile?]
      rw [hsame] at hrest
      exact (grownAt_log message.1 message.2 system).trans hrest

end System

namespace Setup

open FileM

variable {application : Application} {environment : Environment} {clock : Clock} {process : Nat}
  {options : Options} {system last : System} {own : Path} {logger : Logger}

theorem files_install : (install logger system).files = system.files := by
  unfold install
  split <;> rfl

theorem files_setUp (h : options.toFile = false) :
    (setUp application environment clock process options system).2.files = system.files := by
  simp only [setUp, h]
  exact files_install

theorem exists_openSession (h : options.toFile = true)
    (hok : setUp application environment clock process options system = (.ok (), last)) :
    ∃ own start opened,
      (openSession application environment clock process).run start = (.ok own, opened) ∧
      start.files = system.files ∧ opened.files = last.files ∧
      (system.receiver = .nobody → last.sessionFile? = some own) := by
  simp only [setUp, h, if_true] at hok
  rcases hopen : (openSession application environment clock process).run
      { system with console := system.console ++ (consoleFilter environment options).2 } with
    ⟨_ | own, opened⟩ <;> simp only [hopen] at hok <;> cases hok
  refine ⟨own, _, opened, hopen, rfl, files_install.symm, fun hnobody => ?_⟩
  obtain ⟨-, -, -, -, -, -, -, -, hreceiver⟩ := run_openSession_ok hopen
  rw [hnobody] at hreceiver
  simp [install, hreceiver, System.sessionFile?]

section NewSession

variable {directory : Path}
  (hdirectory : system.files.locate (logRoute application environment) = .ok directory)
  (hthere : system.files.lookup? directory = some .directory)
  (hshort : ((logRoute application environment).child
    (sessionName clock.calendar process)).isTooLong = false)
  (hsize : (FileName.text (sessionName clock.calendar process)).size ≤ FileName.sizeLimit)
  (hfree : system.files.lookup? (directory ++ [.text (sessionName clock.calendar process)]) = none)

include hdirectory hthere hshort hsize hfree

theorem run_openSession_new : ((openSession application environment clock process).run system).1 =
    .ok (directory ++ [.text (sessionName clock.calendar process)]) := by
  have hisThere : system.files.isThere (logRoute application environment) = true := by
    rw [FileSystem.isThere, hdirectory]
  have hopened : (openDirectory (logRoute application environment)).run system.files =
      (.ok directory, system.files) := by
    simp only [openDirectory]
    rw [run_get_bind, hisThere, if_neg (by decide)]
    exact run_directoryAt_ok.mpr ⟨hdirectory, hthere, rfl⟩
  have hothers (path entry) := @Retention.lookup?_removeExpired clock.now directory path entry
    (logRoute application environment) system.files
  have hfollow := FileSystem.follow_child_new (stepOf_sessionName clock.calendar process)
    (FileSystem.locate_of_others hothers hdirectory hthere) (hothers _ _ hthere nofun) hshort hsize
    (Retention.lookup?_removeExpired_eq_none hfree)
  have hopen := @run_openAppending_new _ _ clock.now _ hfollow
    (Retention.lookup?_removeExpired_eq_none hfree)
  rw [openSession, run_bind, SystemM.run_onFiles, hopened]
  simp only
  rw [run_bind]
  change ((openAppending _ _).run (Retention.removeExpired _ _ _ _)).1 = _
  rw [hopen]

/-- A session file can be opened if the log directory is there and nothing in it has its name. -/
theorem setUp_ok (h : options.toFile = true) :
    (setUp application environment clock process options system).1 = .ok () := by
  have hsession := @run_openSession_new application environment clock process
    { system with console := system.console ++ (consoleFilter environment options).2 }
    directory hdirectory hthere hshort hsize hfree
  simp only [setUp, h, if_true]
  rcases hrun : (openSession application environment clock process).run
    { system with console := system.console ++ (consoleFilter environment options).2 } with
    ⟨outcome, opened⟩
  rw [hrun] at hsession
  obtain rfl := hsession
  rfl

end NewSession

/-- **The log keeps everything but expired session logs.** Setting up a log without a session file
touches no file. With one, the log directory holds afterwards what was kept of it and the session
file, and there is nothing more to remove. Whatever is logged later, only the session file grows, and
only at its end. -/
theorem setUp_retains (application : Application) (environment : Environment) (clock : Clock)
    (process : Nat) (options : Options) (system : System) :
    let route := logRoute application environment
    let name := sessionName clock.calendar process
    let outcome := setUp application environment clock process options system
    let last := outcome.2
    (options.toFile = false → last.files = system.files) ∧
    (options.toFile = true → outcome.1 = .ok () → ∃ directory own made,
      Opened clock.now route name directory own made system.files last.files ∧
      (system.receiver = .nobody → last.sessionFile? = some own)) ∧
    ∀ messages, last.files.GrownAt last.sessionFile? (last.logAll messages).files := by
  refine ⟨files_setUp, fun htoFile hok => ?_, fun messages => System.grownAt_logAll messages _⟩
  obtain ⟨own, start, opened, hopen, hstart, hlast, hsession⟩ :=
    exists_openSession htoFile (Prod.ext hok rfl)
  obtain ⟨directory, made, hopened⟩ := opened_of_run_openSession hopen
  rw [hstart, hlast] at hopened
  exact ⟨directory, own, made, hopened, hsession⟩

end Setup

end TreeRules.Log
