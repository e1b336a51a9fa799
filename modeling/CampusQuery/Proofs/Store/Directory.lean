import Mathlib
import CampusQuery.Proofs.Except
import CampusQuery.Store.Tree

/-!
Directories of a tree. Main statements: the path of a name in a directory leads to the place of
that name in it, a directory that is there needs not be made, and a listing has exactly the names
of the nodes in the directory.
-/

namespace CampusQuery

/-! ### Paths -/

section Paths

theorem splitSlashes_ne_nil (path : FilePath) : FileTree.splitSlashes path ≠ [] := by
  cases path with
  | nil => exact List.cons_ne_nil _ _
  | cons byte rest =>
    rw [FileTree.splitSlashes]
    split
    · exact List.cons_ne_nil _ _
    · split <;> exact List.cons_ne_nil _ _

theorem splitSlashes_append (front back : FilePath) :
    FileTree.splitSlashes (front ++ slash :: back) =
      FileTree.splitSlashes front ++ FileTree.splitSlashes back := by
  induction front with
  | nil => rfl
  | cons byte front ih =>
    rw [List.cons_append, FileTree.splitSlashes, FileTree.splitSlashes, ih]
    split
    · rfl
    · cases hsteps : FileTree.splitSlashes front with
      | nil => exact absurd hsteps (splitSlashes_ne_nil front)
      | cons step rest => rfl

theorem splitSlashes_of_notMem {name : FileName} (h : slash ∉ name) :
    FileTree.splitSlashes name = [name] := by
  induction name with
  | nil => rfl
  | cons byte name ih =>
    rw [List.mem_cons, not_or] at h
    rw [FileTree.splitSlashes, if_neg (Ne.symm h.1), ih h.2]

theorem isAbsolute_append {dir : FilePath} (hdir : dir ≠ []) (rest : FilePath) :
    isAbsolute (dir ++ rest) = isAbsolute dir := by
  cases dir with
  | nil => contradiction
  | cons byte dir => rfl

/-- A name without a slash is appended, behind a slash if the directory does not end in one. -/
theorem joinPath_eq {dir : FilePath} {name : FileName} (hdir : dir ≠ []) (hname : slash ∉ name) :
    joinPath dir name = if dir.getLast? = some slash then dir ++ name else dir ++ slash :: name := by
  have relative : isAbsolute name = false := by
    rw [isAbsolute, decide_eq_false_iff_not]
    exact fun hhead => hname (List.mem_of_head? hhead)
  exact if_neg (by simp [relative, hdir])

/-- The path of a name in a directory goes on from the steps of the directory, of which an empty
last one is left out. -/
theorem exists_steps_joinPath (tree : FileTree) {dir : FilePath} {name : FileName} (hdir : dir ≠ [])
    (hname : slash ∉ name) : ∃ front last,
      (tree.steps dir).2 = front ++ last ∧ (last = [] ∨ last = [[]]) ∧
        tree.steps (joinPath dir name) = ((tree.steps dir).1, front ++ [name]) := by
  rw [joinPath_eq hdir hname]
  simp only [FileTree.steps]
  split
  · next hlast =>
    obtain ⟨front, rfl⟩ : ∃ front, dir = front ++ [slash] := List.getLast?_eq_some_iff.1 hlast
    refine ⟨FileTree.splitSlashes front, [[]], splitSlashes_append front [], .inr rfl, ?_⟩
    rw [isAbsolute_append hdir, List.append_assoc, List.singleton_append, splitSlashes_append,
      splitSlashes_of_notMem hname]
  · refine ⟨FileTree.splitSlashes dir, [], (List.append_nil _).symm, .inl rfl, ?_⟩
    rw [isAbsolute_append hdir, splitSlashes_append, splitSlashes_of_notMem hname]

end Paths

namespace FileTree

variable {tree tree' : FileTree} {location : Location}

/-! ### Walks -/

theorem walk_append (start : Location) (xs ys : List FileName) :
    tree.walk start (xs ++ ys) = tree.walk start xs >>= fun reached => tree.walk reached ys := by
  induction xs generalizing start with
  | nil => rfl
  | cons step xs ih =>
    rw [List.cons_append, walk, walk]
    split
    · rfl
    · rfl
    · split
      · exact ih start
      · split
        · exact ih start.tail
        · split
          · rfl
          · exact ih (step :: start)

/-- A step is taken from a directory. -/
theorem directory_of_walk_cons {start : Location} {step : FileName} {rest : List FileName}
    (h : tree.walk start (step :: rest) = .ok location) :
    tree.node? start = some .directory := by
  rw [walk] at h
  split at h
  · contradiction
  · contradiction
  · assumption

theorem directory_of_walk {start : Location} {steps : List FileName}
    (h : tree.walk start steps = .ok location) (hdir : tree.node? location = some .directory) :
    tree.node? start = some .directory := by
  cases steps with
  | nil =>
    cases h
    exact hdir
  | cons step rest => exact directory_of_walk_cons h

/-- Steps that name nothing need not be taken. -/
theorem walk_filter {start : Location} {steps : List FileName} {keep : FileName → Bool}
    (hkeep : ∀ step, keep step = false → step = [] ∨ step = [dot])
    (h : tree.walk start steps = .ok location) :
    tree.walk start (steps.filter keep) = .ok location := by
  induction steps generalizing start with
  | nil => exact h
  | cons step rest ih =>
    rw [List.filter_cons]
    split
    · rw [← List.singleton_append, walk_append, bind_eq_ok] at h ⊢
      obtain ⟨next, hnext, hrest⟩ := h
      exact ⟨next, hnext, ih hrest⟩
    · next hfalse =>
      have hskip := hkeep step (Bool.eq_false_iff.2 hfalse)
      rw [walk, directory_of_walk_cons h] at h
      dsimp only at h
      rw [if_pos hskip] at h
      exact ih h

/-- The other tree has the directories of this one. -/
structure KeepsDirs (tree tree' : FileTree) : Prop where
  workingDir : tree'.workingDir = tree.workingDir
  directory : ∀ location, tree.node? location = some .directory →
    tree'.node? location = some .directory

theorem KeepsDirs.walk_eq_ok (keeps : tree.KeepsDirs tree') {start : Location}
    {steps : List FileName} (h : tree.walk start steps = .ok location) :
    tree'.walk start steps = .ok location := by
  induction steps generalizing start with
  | nil => exact h
  | cons step rest ih =>
    have hstart := directory_of_walk_cons h
    rw [walk, hstart] at h
    rw [walk, keeps.directory start hstart]
    dsimp only at h ⊢
    split at h
    · next hstep => rw [if_pos hstep, ih h]
    · next hstep =>
      rw [if_neg hstep]
      split at h
      · next hup => rw [if_pos hup, ih h]
      · next hup =>
        rw [if_neg hup]
        split at h
        · contradiction
        · next hsize => rw [if_neg hsize, ih h]

theorem KeepsDirs.locate_eq_ok (keeps : tree.KeepsDirs tree') {path : FilePath}
    (h : tree.locate path = .ok location) : tree'.locate path = .ok location := by
  rw [locate, bind_eq_ok] at h ⊢
  obtain ⟨⟨⟩, hcheck, hwalk⟩ := h
  refine ⟨⟨⟩, hcheck, ?_⟩
  rw [steps, keeps.workingDir]
  exact keeps.walk_eq_ok hwalk

theorem createAlong_of_walk {start : Location} {steps : List FileName}
    (hsteps : ∀ step ∈ steps, ¬(step = [] ∨ step = [dot]))
    (h : tree.walk start steps = .ok location) (hdir : tree.node? location = some .directory) :
    tree.createAlong start steps = (.ok (), tree) := by
  induction steps generalizing start with
  | nil => rfl
  | cons step rest ih =>
    rw [List.forall_mem_cons] at hsteps
    rw [walk, directory_of_walk_cons h] at h
    dsimp only at h
    rw [if_neg hsteps.1] at h
    rw [createAlong]
    split at h
    · next hup => rw [if_pos hup, ih hsteps.2 h]
    · next hup =>
      rw [if_neg hup]
      split at h
      · contradiction
      · next hsize =>
        rw [if_neg hsize, directory_of_walk h hdir]
        exact ih hsteps.2 h

theorem createAlong_dropLast {start : Location} {steps : List FileName}
    (hsteps : ∀ step ∈ steps, ¬(step = [] ∨ step = [dot]))
    (h : tree.walk start steps = .ok location) :
    tree.createAlong start steps.dropLast = (.ok (), tree) := by
  cases hlast : steps.getLast? with
  | none =>
    rw [List.getLast?_eq_none_iff.1 hlast]
    rfl
  | some last =>
    obtain ⟨front, rfl⟩ := List.getLast?_eq_some_iff.1 hlast
    rw [walk_append, bind_eq_ok] at h
    obtain ⟨reached, hreached, hrest⟩ := h
    rw [List.dropLast_concat]
    exact createAlong_of_walk (fun step hstep => hsteps step (List.mem_append_left _ hstep))
      hreached (directory_of_walk_cons hrest)

/-! ### Nodes -/

section Nodes

theorem lookup_filter (nodes : List (Location × FileNode)) (place location : Location) :
    (nodes.filter (·.1 ≠ place)).lookup location =
      if location = place then none else nodes.lookup location := by
  induction nodes with
  | nil => simp
  | cons entry nodes ih => grind [List.lookup]

variable {name : FileName}

theorem node?_setNode (place : Location) (node : FileNode) :
    (tree.setNode (name :: place) node).node? location =
      if location = name :: place then some node else tree.node? location := by
  rw [node?, setNode, node?, List.lookup_cons, lookup_filter]
  grind

theorem node?_dropNode (place : Location) :
    (tree.dropNode (name :: place)).node? location =
      if location = name :: place then none else tree.node? location := by
  rw [node?, dropNode, node?, lookup_filter]
  grind

/-- What is put in the place of a file hides no directory. -/
theorem keepsDirs_setNode {place : Location} (node : FileNode)
    (h : tree.node? (name :: place) ≠ some .directory) :
    tree.KeepsDirs (tree.setNode (name :: place) node) where
  workingDir := rfl
  directory location hdir := by
    rw [node?_setNode, if_neg, hdir]
    rintro rfl
    exact h hdir

theorem keepsDirs_dropNode {place : Location}
    (h : tree.node? (name :: place) ≠ some .directory) :
    tree.KeepsDirs (tree.dropNode (name :: place)) where
  workingDir := rfl
  directory location hdir := by
    rw [node?_dropNode, if_neg, hdir]
    rintro rfl
    exact h hdir

theorem exists_setNode_of_writeFile {path : FilePath} {content : ByteArray}
    (h : tree.writeFile path content = (.ok (), tree')) :
    ∃ place, tree.locate path = .ok place ∧ tree.node? place ≠ some .directory ∧
      tree' = tree.setNode place (.file content) := by
  rw [writeFile] at h
  split at h
  · cases h
  next place hplace =>
  split at h
  · cases h
  next hfile => exact ⟨place, hplace, hfile, (Prod.mk.inj h).2.symm⟩

theorem isSome_lookup {nodes : List (Location × FileNode)} :
    (nodes.lookup location).isSome ↔ location ∈ nodes.map (·.1) := by
  rw [List.lookup_isSome_iff]
  grind

end Nodes

/-! ### Names in a directory -/

/-- The path leads to a directory. -/
structure HasDir (tree : FileTree) (dir : FilePath) (location : Location) : Prop where
  locate : tree.locate dir = .ok location
  node : tree.node? location = some .directory

variable {dir : FilePath} {name : FileName}

theorem KeepsDirs.hasDir (keeps : tree.KeepsDirs tree') (h : tree.HasDir dir location) :
    tree'.HasDir dir location :=
  ⟨keeps.locate_eq_ok h.locate, keeps.directory location h.node⟩

theorem exists_hasDir {names : List FileName} (h : tree.listDir dir = .ok names) :
    ∃ location, tree.HasDir dir location := by
  rw [listDir, bind_eq_ok] at h
  obtain ⟨location, hlocate, hnode⟩ := h
  refine ⟨location, hlocate, ?_⟩
  split at hnode
  · assumption
  · contradiction
  · contradiction

theorem checkPath_eq_ok_iff {path : FilePath} : checkPath path = .ok () ↔
    path ≠ [] ∧ 0 ∉ path ∧ path.length ≤ maxPathSize := by
  rw [checkPath]
  split
  · simp_all
  split
  · simp_all
  split <;> simp_all

theorem checkPath_of_append {rest : FilePath} (filled : dir ≠ [])
    (h : checkPath (dir ++ rest) = .ok ()) : checkPath dir = .ok () := by
  obtain ⟨-, hnul, hsize⟩ := checkPath_eq_ok_iff.1 h
  rw [List.mem_append, not_or] at hnul
  rw [List.length_append] at hsize
  exact checkPath_eq_ok_iff.2 ⟨filled, hnul.1, by omega⟩

/-- A directory with the path of a name in it is there. -/
theorem exists_hasDir_of_locate (filled : dir ≠ []) (hslash : slash ∉ name)
    {place : Location} (located : tree.locate (joinPath dir name) = .ok place) :
    ∃ location, tree.HasDir dir location := by
  obtain ⟨front, last, hsteps, hlast, hjoin⟩ := exists_steps_joinPath tree filled hslash
  rw [locate, bind_eq_ok] at located
  obtain ⟨⟨⟩, hcheck, hwalk⟩ := located
  rw [hjoin] at hwalk
  dsimp only at hwalk
  rw [walk_append, bind_eq_ok] at hwalk
  obtain ⟨reached, hreached, hname⟩ := hwalk
  have node := directory_of_walk_cons hname
  have checked : checkPath dir = .ok () := by
    rw [joinPath_eq filled hslash] at hcheck
    split at hcheck <;> exact checkPath_of_append filled hcheck
  refine ⟨reached, ?_, node⟩
  rw [locate, checked, ok_bind]
  dsimp only
  rw [hsteps, walk_append, hreached, ok_bind]
  rcases hlast with rfl | rfl
  · rfl
  · rw [walk, node]
    rfl

namespace HasDir

theorem ne_empty (h : tree.HasDir dir location) : dir ≠ [] := by
  rintro rfl
  have hlocate := h.locate
  contradiction

theorem walk_eq_ok (h : tree.HasDir dir location) :
    checkPath dir = .ok () ∧
      tree.walk (tree.steps dir).1 (tree.steps dir).2 = .ok location := by
  have hlocate := h.locate
  rw [FileTree.locate, bind_eq_ok] at hlocate
  obtain ⟨⟨⟩, hcheck, hwalk⟩ := hlocate
  exact ⟨hcheck, hwalk⟩

/-- The path of a name in the directory leads there, within the limits. -/
theorem locate_joinPath (h : tree.HasDir dir location) (hslash : slash ∉ name)
    (hname : name ≠ [] ∧ name ≠ [dot] ∧ name ≠ [dot, dot]) :
    tree.locate (joinPath dir name) = checkPath (joinPath dir name) >>= fun _ =>
      if maxNameSize < name.length then .error .nameTooLong else .ok (name :: location) := by
  obtain ⟨front, last, hsteps, hlast, hjoin⟩ := exists_steps_joinPath tree h.ne_empty hslash
  obtain ⟨-, hwalk⟩ := h.walk_eq_ok
  have hfront : tree.walk (tree.steps dir).1 front = .ok location := by
    rw [hsteps, walk_append, bind_eq_ok] at hwalk
    obtain ⟨reached, hreached, hrest⟩ := hwalk
    rcases hlast with rfl | rfl
    · cases hrest
      exact hreached
    · rw [walk, directory_of_walk_cons hrest] at hrest
      cases hrest
      exact hreached
  rw [FileTree.locate]
  apply bind_congr
  intro _
  rw [hjoin]
  dsimp only
  rw [walk_append, hfront, ok_bind, walk, h.node]
  dsimp only
  rw [if_neg (not_or.2 ⟨hname.1, hname.2.1⟩), if_neg hname.2.2]
  rfl

theorem eq_of_locate_joinPath (h : tree.HasDir dir location) (hslash : slash ∉ name)
    (hname : name ≠ [] ∧ name ≠ [dot] ∧ name ≠ [dot, dot]) {place : Location}
    (located : tree.locate (joinPath dir name) = .ok place) : place = name :: location := by
  rw [h.locate_joinPath hslash hname, bind_eq_ok] at located
  obtain ⟨⟨⟩, -, hplace⟩ := located
  split at hplace
  · contradiction
  · cases hplace
    rfl

theorem isDir_eq (h : tree.HasDir dir location) : tree.isDir dir = true := by
  rw [isDir, h.locate]
  exact decide_eq_true h.node

/-- A directory that is there is not made again. -/
theorem createDirs_eq (h : tree.HasDir dir location) : tree.createDirs dir = (.ok (), tree) := by
  obtain ⟨hcheck, hwalk⟩ := h.walk_eq_ok
  rw [createDirs, if_neg h.ne_empty, hcheck]
  dsimp only
  rw [nameSteps, List.filter_filter]
  set names := (tree.steps dir).2.filter fun step => decide (step ≠ [dot]) && decide (step ≠ [])
  have walked : tree.walk (tree.steps dir).1 names = .ok location :=
    walk_filter (by grind) hwalk
  have named : ∀ step ∈ names, ¬(step = [] ∨ step = [dot]) := by
    grind
  split
  · rw [createAlong_dropLast named walked]
    dsimp only
    rw [if_pos h.isDir_eq]
  · exact createAlong_of_walk named walked h.node

theorem exists_listDir (h : tree.HasDir dir location) : ∃ names, tree.listDir dir = .ok names ∧
    ∀ name, name ∈ names ↔ (tree.node? (name :: location)).isSome := by
  refine ⟨tree.nodes.filterMap fun entry => nameIn? location entry.1, ?_, fun name => ?_⟩
  · rw [listDir, h.locate, ok_bind, h.node]
    rfl
  · rw [node?, if_neg (List.cons_ne_nil _ _), isSome_lookup, List.mem_filterMap, List.mem_map]
    refine exists_congr fun entry => and_congr_right fun _ => ?_
    cases entry.1 with
    | nil => simp [nameIn?]
    | cons other parent => grind [nameIn?]

end HasDir

end FileTree

end CampusQuery
