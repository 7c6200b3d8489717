/-
Writing files one after the other.

A path is followed name by name, and what lies on its way decides only whether it leads anywhere,
not where: a path has one place, `FileTree.place?`.  Below one folder, paths of ordinary names
that differ have different places.  Writing a file changes what is at its place and nothing else.
So where no two files have the same path, what has been written stays as it was written, whether
or not all of the files could be, and that is `Command.Wrote`.
-/
import Mathlib.Tactic.Common
import Screenwright.Command.Run
import Screenwright.Proofs.Lexical.Names

namespace Screenwright

open Swift (SourceFile)

/-! ### Pieces of paths -/

namespace Text

/-- The pieces of a text tell what the text is. -/
theorem segments_injective {sep : Char} {a b : String} (h : segments sep a = segments sep b) :
    a = b := by
  have hjoin := congrArg (join (String.singleton sep)) h
  rw [segments, segments, join_segmentsOf, join_segmentsOf, String.ofList_toList,
    String.ofList_toList] at hjoin
  exact hjoin

theorem segments_append (a b : String) :
    segments '/' (a ++ "/" ++ b) = segments '/' a ++ segments '/' b := by
  have hlist : (a ++ "/" ++ b).toList = a.toList ++ '/' :: b.toList := by simp
  rw [segments, hlist, segmentsOf_append, List.map_append]
  rfl

theorem segments_of_not_mem {sep : Char} {s : String} (h : sep ∉ s.toList) :
    segments sep s = [s] := by
  rw [segments, segmentsOf_of_not_mem h]
  simp

end Text

/-- Below a folder, a path goes on where the folder ends; a slash at the end of the folder is not
followed by another. -/
theorem Command.exists_segments_below (folder : String) :
    ∃ base, (Text.segments '/' folder = base ∨ Text.segments '/' folder = base ++ [""]) ∧
      ∀ path, Text.segments '/' (below folder path) = base ++ Text.segments '/' path := by
  by_cases hlast : folder.toList.getLast? = some '/'
  · obtain ⟨before, hbefore⟩ : ∃ before : String, folder = before ++ "/" := by
      obtain ⟨start, hstart⟩ := List.getLast?_eq_some_iff.mp hlast
      refine ⟨String.ofList start, String.toList_inj.mp ?_⟩
      rw [hstart]
      simp
    refine ⟨Text.segments '/' before, Or.inr ?_, fun path => ?_⟩
    · have hempty := Text.segments_append before ""
      rw [String.append_empty] at hempty
      rw [hbefore, hempty]
      rfl
    · rw [below, if_pos hlast, hbefore, Text.segments_append]
  · refine ⟨Text.segments '/' folder, Or.inl rfl, fun path => ?_⟩
    rw [below, if_neg hlast, Text.segments_append]

/-- A path below a folder begins with the folder. -/
theorem Command.exists_below_eq (folder path : String) :
    ∃ more, below folder path = folder ++ more := by
  unfold below
  split
  · exact ⟨path, rfl⟩
  · exact ⟨"/" ++ path, String.append_assoc⟩

namespace FileTree

/-! ### Places -/

/-- The place of a path, whatever lies on its way. -/
def place? (path : String) : Option (List String) :=
  locate (fun _ => true) path

/-- A name that leads into a folder or to a file, and to nothing else. -/
structure Ordinary (name : String) : Prop where
  nonempty : name ≠ ""
  here : name ≠ "."
  up : name ≠ ".."

theorem walk_append {enters : List String → Bool} (xs ys : List String) :
    ∀ path, walk enters path (xs ++ ys) =
      (walk enters path xs).bind fun between => walk enters between ys := by
  induction xs with
  | nil => exact fun _ => rfl
  | cons name xs ih =>
      intro path
      rw [List.cons_append, walk, walk]
      split
      · rfl
      · split
        · exact ih path
        · split
          · split
            · rfl
            · exact ih _
          · split
            · rfl
            · exact ih _

/-- What lies on the way decides only whether a walk comes through. -/
theorem walk_of_walk {enters : List String → Bool} {names : List String} {place : List String} :
    ∀ {path : List String}, walk enters path names = some place →
      walk (fun _ => true) path names = some place := by
  induction names with
  | nil => exact fun h => h
  | cons name names ih =>
      intro path h
      rw [walk] at h ⊢
      rw [if_neg (by simp)]
      split at h
      · cases h
      · split at h
        next hstay =>
          rw [if_pos hstay]
          exact ih h
        next hstay =>
          rw [if_neg hstay]
          split at h
          next hup =>
            rw [if_pos hup]
            split at h
            · cases h
            next hroot =>
              rw [if_neg hroot]
              exact ih h
          next hup =>
            rw [if_neg hup]
            split at h
            · cases h
            next hfits =>
              rw [if_neg hfits]
              exact ih h

/-- Ordinary names lead straight on. -/
theorem eq_append_of_walk {enters : List String → Bool} {names place : List String}
    (hnames : ∀ name ∈ names, Ordinary name) :
    ∀ {path : List String}, walk enters path names = some place → place = path ++ names := by
  induction names with
  | nil =>
      intro path h
      rw [walk] at h
      rw [List.append_nil, Option.some.inj h]
  | cons name names ih =>
      intro path h
      rw [List.forall_mem_cons] at hnames
      obtain ⟨⟨hempty, hhere, hup⟩, hrest⟩ := hnames
      rw [walk] at h
      split at h
      · cases h
      · rw [if_neg (by simp [hempty, hhere])] at h
        split at h
        · cases h
        · rw [ih hrest h, List.append_assoc]
          rfl

theorem place?_of_locateNew {tree : FileTree} {path : String} {place : List String}
    (h : tree.locateNew path = some place) : place? path = some place := by
  unfold locateNew locate at h
  unfold place? locate
  split at h
  · cases h
  next hfits =>
    rw [if_neg hfits]
    exact walk_of_walk h

/-- **A path of ordinary names below a folder leads to the place of the folder, and straight on from
there.** -/
theorem exists_place?_of_below {folder path : String} {place : List String}
    (hpath : ∀ name ∈ Text.segments '/' path, Ordinary name)
    (h : place? (Command.below folder path) = some place) :
    ∃ base, place? folder = some base ∧ place = base ++ Text.segments '/' path := by
  obtain ⟨pieces, hpieces, hbelow⟩ := Command.exists_segments_below folder
  unfold place? locate at h ⊢
  split at h
  · cases h
  next hfits =>
    rw [hbelow, walk_append] at h
    obtain ⟨base, hbase, hwalk⟩ := Option.bind_eq_some_iff.mp h
    refine ⟨base, ?_, eq_append_of_walk hpath hwalk⟩
    -- The folder is no longer than the path, and begins as it does.
    have hfolder : ¬ (Text.startsWith "/" folder || maxPathBytes < folder.utf8ByteSize) = true := by
      obtain ⟨more, hmore⟩ := Command.exists_below_eq folder path
      simp only [hmore, Text.startsWith, String.toList_append, String.utf8ByteSize_append,
        Bool.or_eq_true, decide_eq_true_eq, List.isPrefixOf_iff_prefix, not_or] at hfits ⊢
      exact ⟨fun hstart => hfits.1 (hstart.trans (List.prefix_append _ _)), by omega⟩
    rw [if_neg hfolder]
    rcases hpieces with hpieces | hpieces
    · rw [hpieces, hbase]
    · rw [hpieces, walk_append, hbase]
      simp [walk]

/-- **Below one folder, paths of ordinary names that lead to one place are one path.** -/
theorem path_eq_of_place? {folder p q : String} {place : List String}
    (hp : ∀ name ∈ Text.segments '/' p, Ordinary name)
    (hq : ∀ name ∈ Text.segments '/' q, Ordinary name)
    (h : place? (Command.below folder p) = some place)
    (h' : place? (Command.below folder q) = some place) : p = q := by
  obtain ⟨base, hbase, hfirst⟩ := exists_place?_of_below hp h
  obtain ⟨base', hbase', hsecond⟩ := exists_place?_of_below hq h'
  rw [hbase] at hbase'
  rw [hfirst, ← Option.some.inj hbase'] at hsecond
  exact Text.segments_injective (List.append_cancel_left hsecond)

/-! ### Putting a file -/

theorem file?_put_self (tree : FileTree) (place : List String) (content : String) :
    (tree.put place content).file? place = some content := by
  have hnone : (tree.files.filter (·.1 ≠ place)).lookup place = none := by
    rw [List.lookup_eq_none_iff]
    intro entry hentry
    have hne : entry.1 ≠ place := by simpa using (List.mem_filter.mp hentry).2
    simpa using hne.symm
  rw [file?, put, List.lookup_append, hnone, Option.none_or, List.lookup_cons, beq_self_eq_true]

/-- A file stays as it is while files are put elsewhere. -/
theorem file?_put_of_ne {tree : FileTree} {place other : List String} (content : String)
    (h : other ≠ place) : (tree.put place content).file? other = tree.file? other := by
  have hlast : [(place, content)].lookup other = none := by
    rw [List.lookup_cons, beq_false_of_ne h]
    rfl
  rw [file?, file?, put, List.lookup_append, hlast, Option.or_none]
  induction tree.files with
  | nil => rfl
  | cons entry rest ih =>
      by_cases hentry : entry.1 = place
      · have hne : (other == entry.1) = false := by
          rw [hentry]
          exact beq_false_of_ne h
        rw [List.filter_cons_of_neg (by simpa using hentry), List.lookup_cons, hne]
        exact ih
      · rw [List.filter_cons_of_pos (by simpa using hentry), List.lookup_cons, List.lookup_cons, ih]

/-- The tree holds a file at the place of its path. -/
def Holds (tree : FileTree) (path content : String) : Prop :=
  ∃ place, place? path = some place ∧ tree.file? place = some content

end FileTree

/-! ### Work on a disk in memory -/

namespace Command

/-- What a piece of work comes to, and the tree that it leaves. -/
def runOn {α : Type} (tree : FileTree) (work : ExceptT CommandError (StateM FileTree) α) :
    Except CommandError α × FileTree :=
  work.run.run tree

section Work

variable {α β : Type} {x : ExceptT CommandError (StateM FileTree) α}
  {f : α → ExceptT CommandError (StateM FileTree) β} {tree after : FileTree}

theorem runOn_bind_of_ok {a : α} (h : runOn tree x = (.ok a, after)) :
    runOn tree (x >>= f) = runOn after (f a) := by
  unfold runOn at h ⊢
  rw [ExceptT.run_bind, StateT.run_bind, h]
  rfl

theorem runOn_bind_of_error {e : CommandError} (h : runOn tree x = (.error e, after)) :
    runOn tree (x >>= f) = (.error e, after) := by
  unfold runOn at h ⊢
  rw [ExceptT.run_bind, StateT.run_bind, h]
  rfl

theorem runOn_throw_bind (tree : FileTree) (e : CommandError) :
    runOn tree ((throw e : ExceptT CommandError (StateM FileTree) α) >>= f) = (.error e, tree) :=
  runOn_bind_of_error rfl

theorem runOn_makeFolders (tree : FileTree) (path : String) :
    runOn tree (liftM (FileTree.disk.makeFolders path)) = (.ok (tree.canHold path), tree) := rfl

theorem runOn_write (tree : FileTree) (path content : String) :
    runOn tree (liftM (FileTree.disk.write path content)) =
      (.ok (tree.write? path content).isSome, (tree.write? path content).getD tree) := by
  have hrun : (FileTree.disk.write path content).run tree =
      (((tree.write? path content).isSome, (tree.write? path content).getD tree) :
        Bool × FileTree) := by
    unfold FileTree.disk
    dsimp only
    rw [StateT.run_bind, StateT.run_get, pure_bind]
    cases tree.write? path content <;> rfl
  show (Except.ok ((FileTree.disk.write path content).run tree).1,
    ((FileTree.disk.write path content).run tree).2) = _
  rw [hrun]

end Work

variable {folder : String} {file : SourceFile} {files : List SourceFile} {tree after : FileTree}
  {result : Except CommandError Unit}

/-- The last step of writing a file: the file is put, or the tree stays as it is. -/
theorem put_of_runOn_write {path content : String}
    (h : runOn tree (do
      unless ← FileTree.disk.write path content do throw (.writing path)) = (result, after)) :
    (∃ place, tree.locateNew path = some place ∧ result = .ok () ∧
        after = tree.put place content) ∨
      result = .error (.writing path) ∧ after = tree := by
  rw [runOn_bind_of_ok (runOn_write tree path content)] at h
  unfold FileTree.write? at h
  split at h
  next place hplace =>
    split at h
    · cases h
      exact Or.inr ⟨rfl, rfl⟩
    · cases h
      exact Or.inl ⟨place, hplace, rfl, rfl⟩
  · cases h
    exact Or.inr ⟨rfl, rfl⟩

/-- **A file that is written is put at the place of its path, and nothing else changes.**  It is
refused only where its path leads outside. -/
theorem put_of_writeFile (h : runOn tree (writeFile FileTree.disk folder file) = (result, after)) :
    (∃ place, tree.locateNew (below folder file.path) = some place ∧ result = .ok () ∧
        after = tree.put place file.content) ∨
      ∃ e, result = .error e ∧ after = tree ∧
        ∀ path, e = .outside path → staysInside file.path = false := by
  have hput : ∀ {tree : FileTree}, runOn tree (do
      unless ← FileTree.disk.write (below folder file.path) file.content do
        throw (.writing (below folder file.path))) = (result, after) →
      (∃ place, tree.locateNew (below folder file.path) = some place ∧ result = .ok () ∧
        after = tree.put place file.content) ∨
      ∃ e, result = .error e ∧ after = tree ∧
        ∀ path, e = .outside path → staysInside file.path = false := by
    intro tree hwrite
    refine (put_of_runOn_write hwrite).imp_right fun ⟨herror, hafter⟩ => ?_
    exact ⟨_, herror, hafter, fun _ heq => by cases heq⟩
  unfold writeFile at h
  dsimp only at h
  by_cases hinside : staysInside file.path = true
  · rw [if_pos hinside] at h
    cases hsplit : Text.splitLast '/' (below folder file.path) with
    | none =>
        rw [hsplit] at h
        exact hput h
    | some found =>
        rw [hsplit] at h
        dsimp only at h
        rw [runOn_bind_of_ok (runOn_makeFolders tree found.1)] at h
        split at h
        · exact hput h
        · rw [runOn_throw_bind] at h
          cases h
          exact Or.inr ⟨_, rfl, rfl, fun _ heq => by cases heq⟩
  · rw [if_neg hinside, runOn_throw_bind] at h
    cases h
    exact Or.inr ⟨_, rfl, rfl, fun _ _ => Bool.eq_false_iff.mpr hinside⟩

/-! ### All files -/

/-- What has come of writing files below a folder: the first of them are in their places, and
either they are all or the next of them cannot be written. -/
def Wrote (folder : String) (files : List SourceFile) (result : Except CommandError Unit)
    (after : FileTree) : Prop :=
  ∃ written rest, files = written ++ rest ∧
    (∀ file ∈ written, after.Holds (below folder file.path) file.content) ∧
    match result with
    | .ok () => rest = []
    | .error e => ∃ file more, rest = file :: more ∧
      runOn after (writeFile FileTree.disk folder file) = (.error e, after)

/-- Writing files changes nothing but their places. -/
theorem file?_of_writeFiles {place : List String} :
    ∀ {tree : FileTree}, runOn tree (writeFiles FileTree.disk folder files) = (result, after) →
      (∀ file ∈ files, FileTree.place? (below folder file.path) ≠ some place) →
      after.file? place = tree.file? place := by
  induction files with
  | nil =>
      rintro tree ⟨⟩ _
      rfl
  | cons file files ih =>
      intro tree h hplaces
      rw [List.forall_mem_cons] at hplaces
      have hstep : runOn tree (writeFile FileTree.disk folder file >>= fun _ =>
          writeFiles FileTree.disk folder files) = (result, after) := h
      cases hfirst : runOn tree (writeFile FileTree.disk folder file) with
      | mk outcome between =>
          rcases put_of_writeFile hfirst with ⟨target, htarget, rfl, rfl⟩ | ⟨e, rfl, rfl, -⟩
          · rw [runOn_bind_of_ok hfirst] at hstep
            have hne : place ≠ target := by
              rintro rfl
              exact hplaces.1 (FileTree.place?_of_locateNew htarget)
            rw [ih hstep hplaces.2, FileTree.file?_put_of_ne _ hne]
          · rw [runOn_bind_of_error hfirst] at hstep
            cases hstep
            rfl

/-- **What has been written stays as it was written**, if no two files have the same path. -/
theorem wrote_of_writeFiles (hordinary : ∀ file ∈ files, ∀ name ∈ Text.segments '/' file.path,
      FileTree.Ordinary name) :
    ∀ {tree : FileTree}, (files.map SourceFile.path).Nodup →
      runOn tree (writeFiles FileTree.disk folder files) = (result, after) →
      Wrote folder files result after := by
  induction files with
  | nil =>
      rintro tree _ ⟨⟩
      exact ⟨[], [], rfl, by simp, rfl⟩
  | cons file files ih =>
      intro tree hnodup h
      rw [List.forall_mem_cons] at hordinary
      rw [List.map_cons, List.nodup_cons] at hnodup
      have hstep : runOn tree (writeFile FileTree.disk folder file >>= fun _ =>
          writeFiles FileTree.disk folder files) = (result, after) := h
      cases hfirst : runOn tree (writeFile FileTree.disk folder file) with
      | mk outcome between =>
          rcases put_of_writeFile hfirst with ⟨place, htarget, rfl, rfl⟩ | ⟨e, rfl, rfl, -⟩
          · rw [runOn_bind_of_ok hfirst] at hstep
            obtain ⟨written, rest, rfl, hheld, hresult⟩ := ih hordinary.2 hnodup.2 hstep
            have hplace := FileTree.place?_of_locateNew htarget
            -- No file that is written later has the place of this one.
            have hapart : ∀ other ∈ written ++ rest,
                FileTree.place? (below folder other.path) ≠ some place := by
              intro other hother heq
              have hsame := FileTree.path_eq_of_place? hordinary.1 (hordinary.2 other hother)
                hplace heq
              exact hnodup.1 (hsame ▸ List.mem_map_of_mem hother)
            refine ⟨file :: written, rest, rfl, ?_, hresult⟩
            rw [List.forall_mem_cons]
            refine ⟨⟨place, hplace, ?_⟩, hheld⟩
            rw [file?_of_writeFiles hstep hapart, FileTree.file?_put_self]
          · rw [runOn_bind_of_error hfirst] at hstep
            cases hstep
            exact ⟨[], file :: files, rfl, by simp, file, files, rfl, hfirst⟩

end Command

end Screenwright
