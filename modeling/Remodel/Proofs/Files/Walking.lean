import Remodel.Files.Walk
import Remodel.Proofs.Files.Proper

/-!
# Reading what a walk has found

A walk through a proper tree gives every file the path under which it is read
(`readBytes_of_mem_walk`).

## Strategy

A name that is joined to the path of a directory leads one step further (`find_join`), also if the
path ends with slashes, which lead nowhere.  The induction is on the node that is walked through,
for every path that leads there.
-/

namespace Remodel

variable {base name : String}

/-! ## Paths of entries -/

namespace Path

theorem isAbsolute_eq (path : String) :
    isAbsolute path = decide (path.toList.head? = some '/') := by
  unfold isAbsolute
  cases path.toList with
  | nil => rfl
  | cons c rest =>
      rw [List.isPrefixOf_cons_cons, List.isPrefixOf_nil_left, Bool.and_true, List.head?_cons,
        beq_eq_decide]
      exact decide_eq_decide.mpr ⟨fun h => h ▸ rfl, fun h => (Option.some.inj h).symm⟩

theorem IsName.isAbsolute (h : IsName name) : isAbsolute name = false := by
  rw [isAbsolute_eq, decide_eq_false_iff_not]
  exact fun hhead => h.slash (List.mem_of_head? hhead)

variable (hbase : base ≠ "") (hname : IsName name)

include hbase hname

/-- A name stands behind the slash at the end of the path above it, or behind a new one. -/
theorem toList_join : ∃ front, (base.toList = front ∨ base.toList = front ++ ['/']) ∧
    (join base name).toList = front ++ '/' :: name.toList := by
  unfold join
  rw [hname.isAbsolute, Bool.false_or, if_neg (by simpa using hbase)]
  split
  · rename_i hlast
    obtain ⟨front, hfront⟩ := List.getLast?_eq_some_iff.mp hlast
    exact ⟨front, Or.inr hfront, by simp [hfront]⟩
  · exact ⟨base.toList, Or.inl rfl, by simp⟩

theorem join_ne_empty : join base name ≠ "" := by
  obtain ⟨front, -, hjoin⟩ := toList_join hbase hname
  intro hempty
  rw [hempty] at hjoin
  exact absurd hjoin.symm (by simp)

theorem isAbsolute_join : isAbsolute (join base name) = isAbsolute base := by
  obtain ⟨front, hfront, hjoin⟩ := toList_join hbase hname
  have hne : base.toList ≠ [] := fun h => hbase (String.toList_eq_nil_iff.mp h)
  rw [isAbsolute_eq, isAbsolute_eq, hjoin]
  rcases hfront with hfront | hfront <;> rw [hfront] at hne ⊢
  · rw [List.head?_append_of_ne_nil _ hne]
  · cases front <;> rfl

/-- The names below a directory are those of the directory, without an empty last one, and the
name. -/
theorem names_join : ∃ front, (names base = front ∨ names base = front ++ [""]) ∧
    names (join base name) = front ++ [name] := by
  obtain ⟨front, hfront, hjoin⟩ := toList_join hbase hname
  refine ⟨(front.splitOn '/').map String.ofList, hfront.imp (fun h => ?_) (fun h => ?_), ?_⟩
  · rw [names_eq, h]
  · rw [names_eq, h, List.splitOn_append_cons_self, List.map_append]
    rfl
  · rw [names_eq, hjoin, List.splitOn_append_cons_self, List.splitOn_eq_singleton hname.slash,
      List.map_append, List.map_singleton, String.ofList_toList]

end Path

/-! ## Finding and reading -/

namespace FileTree

variable {tree : FileTree} {location : FileLocation} {entries : List (String × FileNode)}
  {child : FileNode}

theorem ne_empty_of_find {path : String} (h : tree.find path = .ok location) : path ≠ "" := by
  rintro rfl
  cases h

theorem namesFrom_join (tree : FileTree) (hbase : base ≠ "") (hname : Path.IsName name) :
    ∃ front, (tree.namesFrom base = front ∨ tree.namesFrom base = front ++ [""]) ∧
      tree.namesFrom (Path.join base name) = front ++ [name] := by
  obtain ⟨front, hfront, hjoin⟩ := Path.names_join hbase hname
  unfold namesFrom
  rw [Path.isAbsolute_join hbase hname, hjoin]
  split
  · exact ⟨front, hfront, rfl⟩
  · refine ⟨tree.working ++ front, ?_, (List.append_assoc ..).symm⟩
    rcases hfront with hfront | hfront <;> simp [hfront]

/-- An entry is found under its name below the path of the directory. -/
theorem find_join (hfind : tree.find base = .ok location)
    (hnode : location.node = .directory entries) (hname : Path.IsName name)
    (hlookup : entries.lookup name = some child) :
    tree.find (Path.join base name) = .ok ⟨child, (name, location.node) :: location.above⟩ := by
  have hbase := ne_empty_of_find hfind
  have hstep : location.follow [name] = .ok ⟨child, (name, location.node) :: location.above⟩ := by
    simp [FileLocation.follow_singleton, hnode, hname.leads, hname.down, hlookup]
  obtain ⟨front, hfront, hjoin⟩ := namesFrom_join tree hbase hname
  -- an empty name at the end of the path leads nowhere
  have hfollow : FileLocation.follow ⟨tree.root, []⟩ front = .ok location := by
    unfold find at hfind
    rw [if_neg (by simpa using hbase)] at hfind
    rcases hfront with hfront | hfront <;> rw [hfront] at hfind
    · exact hfind
    · rw [FileLocation.follow_append] at hfind
      obtain ⟨before, hbefore, hlast⟩ := bind_eq_ok hfind
      rw [FileLocation.follow_singleton] at hlast
      split at hlast
      · cases hlast
      · exact hbefore.trans hlast
  unfold find
  rw [if_neg (by simpa using Path.join_ne_empty hbase hname), hjoin, FileLocation.follow_append,
    hfollow]
  exact hstep

theorem walkEntries_eq (path relative : String) (entries : List (String × FileNode)) :
    walkEntries path relative entries = entries.flatMap fun entry =>
      entry.2.walk (Path.join path entry.1) (Path.join relative entry.1) := by
  induction entries with
  | nil => rfl
  | cons entry rest ih => rw [walkEntries, ih, List.flatMap_cons]

theorem readBytes_of_mem_nodeWalk {node : FileNode} (hproper : node.Proper) {path : String}
    (hfind : tree.find path = .ok location) (hnode : location.node = node) (relative : String) :
    ∀ found ∈ node.walk path relative, tree.readBytes found.path = .ok found.content := by
  induction hproper generalizing path relative location with
  | file content =>
      intro found hfound
      obtain rfl := List.mem_singleton.mp (FileNode.walk.eq_1 .. ▸ hfound)
      rw [readBytes, hfind, ok_bind, hnode]
      rfl
  | directory ascending names nodes ih =>
      intro found hfound
      rw [FileNode.walk, walkEntries_eq] at hfound
      obtain ⟨⟨name, child⟩, hentry, hfound⟩ := List.mem_flatMap.mp hfound
      have hlookup := ascending.mem_iff_lookup.mp hentry
      exact ih _ hentry (find_join hfind hnode (names _ hentry) hlookup) rfl _ found hfound

/-- What a walk through a proper tree has found is read under its path. -/
theorem readBytes_of_mem_walk (hproper : tree.root.Proper) {directory : String} {found : FoundFile}
    (hfound : found ∈ tree.walk directory) : tree.readBytes found.path = .ok found.content := by
  unfold walk at hfound
  split at hfound
  · rename_i location hfind
    have hroot : FileLocation.Proper ⟨tree.root, []⟩ :=
      ⟨hproper, fun _ h => absurd h List.not_mem_nil⟩
    have hlocation : location.Proper := by
      unfold find at hfind
      split at hfind
      · cases hfind
      · exact hroot.follow hfind
    exact readBytes_of_mem_nodeWalk hlocation.node hfind rfl "" found hfound
  · exact absurd hfound List.not_mem_nil

end FileTree

end Remodel
