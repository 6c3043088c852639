import Remodel.Files.Tree
import Remodel.Proofs.Table
import Remodel.Proofs.Text.Parts
import Remodel.Proofs.Trace

/-!
# Proper trees

In a proper tree the entries of every directory stand under different names, and every name can be
a part of a path: it is not empty, has no slash, and is not one of those that lead nowhere or up.
A tree stays proper when something is put into it (`Proper.put`) or a file is written
(`Proper.write`), so that every tree that is made in this way is proper.

## Strategy

Following a path goes to proper nodes only and keeps a proper way back (`FileLocation.Proper`),
along which a node is replaced.
-/

namespace Remodel

/-! ## Names -/

/-- A name that an entry of a directory may have. -/
structure Path.IsName (name : String) : Prop where
  leads : staysInPlace name = false
  down : name ≠ ".."
  slash : '/' ∉ name.toList

namespace Path

theorem names_eq (path : String) :
    names path = (path.toList.splitOn '/').map String.ofList := by
  rw [← Text.cut_singleton]
  rfl

theorem slash_notMem_of_mem_names {path name : String} (h : name ∈ names path) :
    '/' ∉ name.toList := by
  rw [names_eq] at h
  obtain ⟨part, hpart, rfl⟩ := List.mem_map.mp h
  rw [String.toList_ofList]
  exact Text.notMem_of_mem_splitOn hpart

theorem isName_of_mem_resolved {parts : List String} (hslash : ∀ name ∈ parts, '/' ∉ name.toList)
    {name : String} (h : name ∈ resolved parts) : IsName name := by
  suffices hfold : ∀ above : List String, (∀ name ∈ above, IsName name) →
      ∀ name ∈ parts.foldl (fun above name =>
        if staysInPlace name then above
        else if name = ".." then above.tail
        else name :: above) above, IsName name from
    hfold [] (fun _ h => absurd h List.not_mem_nil) name (List.mem_reverse.mp h)
  clear h
  induction parts with
  | nil => exact fun above habove => habove
  | cons first rest ih =>
      intro above habove
      obtain ⟨hfirst, hrest⟩ := List.forall_mem_cons.mp hslash
      refine ih hrest _ ?_
      dsimp only
      split
      · exact habove
      · rename_i hleads
        split
        · exact fun name hname => habove name (List.mem_of_mem_tail hname)
        · rename_i hdown
          exact List.forall_mem_cons.mpr ⟨⟨Bool.eq_false_iff.mpr hleads, hdown, hfirst⟩, habove⟩

end Path

/-! ## Nodes -/

/-- Every directory has ascending names that may be part of a path. -/
inductive FileNode.Proper : FileNode → Prop
  | file (content : Codec.Bytes) : Proper (.file content)
  | directory {entries : List (String × FileNode)} (ascending : Table.Ascending entries)
      (names : ∀ entry ∈ entries, Path.IsName entry.1)
      (nodes : ∀ entry ∈ entries, entry.2.Proper) : Proper (.directory entries)

namespace FileNode

variable {node child : FileNode} {name : String}

theorem Proper.empty : (FileNode.directory []).Proper :=
  .directory List.Pairwise.nil (fun _ h => absurd h List.not_mem_nil)
    (fun _ h => absurd h List.not_mem_nil)

theorem Proper.of_lookup (h : node.Proper) (hlookup : node.entries.lookup name = some child) :
    Path.IsName name ∧ child.Proper := by
  cases h with
  | file content => simp [entries] at hlookup
  | directory ascending names nodes =>
      have hmem := Table.mem_of_lookup hlookup
      exact ⟨names _ hmem, nodes _ hmem⟩

/-- A directory stays proper when an entry is put into it; what was a file becomes a directory. -/
theorem Proper.insert (h : node.Proper) (hname : Path.IsName name) (hchild : child.Proper) :
    (FileNode.directory (Table.insert name child node.entries)).Proper := by
  have hentries : Table.Ascending node.entries ∧ ∀ entry ∈ node.entries,
      Path.IsName entry.1 ∧ entry.2.Proper := by
    cases h with
    | file content => exact ⟨List.Pairwise.nil, fun _ h => absurd h List.not_mem_nil⟩
    | directory ascending names nodes =>
        exact ⟨ascending, fun entry hentry => ⟨names entry hentry, nodes entry hentry⟩⟩
  have hinsert : ∀ entry ∈ Table.insert name child node.entries,
      Path.IsName entry.1 ∧ entry.2.Proper := by
    intro entry hentry
    rcases Table.mem_of_mem_insert hentry with rfl | hentry
    · exact ⟨hname, hchild⟩
    · exact hentries.2 entry hentry
  exact .directory (hentries.1.insert name child) (fun entry hentry => (hinsert entry hentry).1)
    (fun entry hentry => (hinsert entry hentry).2)

end FileNode

/-! ## Locations -/

/-- The node is proper, and so is the way to it. -/
structure FileLocation.Proper (location : FileLocation) : Prop where
  node : location.node.Proper
  above : ∀ step ∈ location.above, Path.IsName step.1 ∧ step.2.Proper

namespace FileLocation

variable {location target : FileLocation}

theorem Proper.up (h : location.Proper) : location.up.Proper := by
  obtain ⟨node, above⟩ := location
  cases above with
  | nil => exact h
  | cons step rest =>
      obtain ⟨hstep, hrest⟩ := List.forall_mem_cons.mp h.above
      exact ⟨hstep.2, hrest⟩

/-- One step of a path leads to an entry, up, or nowhere. -/
theorem follow_singleton (location : FileLocation) (name : String) :
    location.follow [name] =
      match location.node with
      | .file _ => .error .notADirectory
      | .directory entries =>
        if Path.staysInPlace name then .ok location
        else if name = ".." then .ok location.up
        else
          match entries.lookup name with
          | some child => .ok ⟨child, (name, location.node) :: location.above⟩
          | none => .error .notFound := by
  rw [follow]
  rfl

theorem follow_cons (location : FileLocation) (name : String) (rest : List String) :
    location.follow (name :: rest) = location.follow [name] >>= fun next => next.follow rest := by
  rw [follow_singleton, follow]
  cases location.node with
  | file content => rfl
  | directory entries =>
      dsimp only
      split
      · rfl
      · split
        · rfl
        · cases entries.lookup name <;> rfl

theorem follow_append (location : FileLocation) (first second : List String) :
    location.follow (first ++ second) =
      location.follow first >>= fun next => next.follow second := by
  induction first generalizing location with
  | nil => rfl
  | cons name rest ih =>
      rw [List.cons_append, follow_cons, follow_cons location name rest, bind_assoc]
      exact congrArg _ (funext fun next => ih next)

theorem Proper.step (h : location.Proper) {name : String}
    (hfollow : location.follow [name] = .ok target) : target.Proper := by
  obtain ⟨node, above⟩ := location
  rw [follow_singleton] at hfollow
  cases node with
  | file content => cases hfollow
  | directory entries =>
      dsimp only at hfollow
      split at hfollow
      · exact Except.ok.inj hfollow ▸ h
      · split at hfollow
        · exact Except.ok.inj hfollow ▸ h.up
        · cases hlookup : entries.lookup name with
          | none =>
              rw [hlookup] at hfollow
              cases hfollow
          | some child =>
              rw [hlookup] at hfollow
              obtain rfl := Except.ok.inj hfollow
              obtain ⟨hname, hchild⟩ := h.node.of_lookup hlookup
              exact ⟨hchild, List.forall_mem_cons.mpr ⟨⟨hname, h.node⟩, h.above⟩⟩

theorem Proper.follow (h : location.Proper) {names : List String}
    (hfollow : location.follow names = .ok target) : target.Proper := by
  induction names generalizing location with
  | nil => exact Except.ok.inj hfollow ▸ h
  | cons name rest ih =>
      rw [follow_cons] at hfollow
      cases hnext : location.follow [name] with
      | error fault =>
          rw [hnext] at hfollow
          cases hfollow
      | ok next =>
          rw [hnext] at hfollow
          exact ih (h.step hnext) hfollow

/-- The root is proper after a proper node has been put somewhere. -/
theorem Proper.replace (h : location.Proper) {node : FileNode} (hnode : node.Proper) :
    (location.replace node).Proper := by
  have habove := h.above
  unfold FileLocation.replace
  generalize location.above = above at habove
  induction above generalizing node with
  | nil => exact hnode
  | cons step rest ih =>
      obtain ⟨⟨hname, hparent⟩, hrest⟩ := List.forall_mem_cons.mp habove
      exact ih (hparent.insert hname hnode) hrest

end FileLocation

/-! ## Trees -/

/-- The root is proper, and the working directory is named by proper names. -/
structure FileTree.Proper (tree : FileTree) : Prop where
  root : tree.root.Proper
  working : ∀ name ∈ tree.working, Path.IsName name

namespace FileTree

variable {tree : FileTree} {path : String}

theorem proper_inDirectory {working : List String} (h : ∀ name ∈ working, Path.IsName name) :
    (inDirectory working).Proper := by
  refine ⟨?_, h⟩
  unfold inDirectory
  induction working with
  | nil => exact .empty
  | cons name rest ih =>
      obtain ⟨hname, hrest⟩ := List.forall_mem_cons.mp h
      exact FileNode.Proper.empty.insert hname (ih hrest)

theorem Proper.slash_notMem (h : tree.Proper) :
    ∀ name ∈ tree.namesFrom path, '/' ∉ name.toList := by
  intro name hname
  unfold namesFrom at hname
  split at hname
  · exact Path.slash_notMem_of_mem_names hname
  · rcases List.mem_append.mp hname with hname | hname
    · exact (h.working name hname).slash
    · exact Path.slash_notMem_of_mem_names hname

theorem proper_putBelow {node below : FileNode} (hnode : node.Proper) (hbelow : below.Proper)
    {names : List String} (hnames : ∀ name ∈ names, Path.IsName name) :
    (putBelow node below names).Proper := by
  induction names generalizing node with
  | nil => exact hbelow
  | cons name rest ih =>
      obtain ⟨hname, hrest⟩ := List.forall_mem_cons.mp hnames
      refine hnode.insert hname (ih ?_ hrest)
      cases hlookup : node.entries.lookup name with
      | none => exact .empty
      | some child => exact (hnode.of_lookup hlookup).2

/-- A tree stays proper when a node is put into it. -/
theorem Proper.put (h : tree.Proper) {node : FileNode} (hnode : node.Proper) :
    (tree.put path node).Proper := by
  unfold FileTree.put
  dsimp only
  split
  · exact h
  · exact ⟨proper_putBelow h.root hnode fun name hname =>
      Path.isName_of_mem_resolved h.slash_notMem hname, h.working⟩

theorem Proper.putAll (h : tree.Proper) {entries : List (String × FileNode)}
    (hentries : ∀ entry ∈ entries, entry.2.Proper) :
    (entries.foldl (fun tree entry => tree.put entry.1 entry.2) tree).Proper := by
  induction entries generalizing tree with
  | nil => exact h
  | cons entry rest ih =>
      obtain ⟨hentry, hrest⟩ := List.forall_mem_cons.mp hentries
      exact ih (h.put hentry) hrest

/-- What is written becomes an entry of the directory that all names but the last lead to. -/
theorem exists_of_write {content : Codec.Bytes} {written : FileTree}
    (h : tree.write path content = .ok written) :
    ∃ (parent : FileLocation) (name : String),
      FileLocation.follow ⟨tree.root, []⟩ (tree.namesFrom path).dropLast = .ok parent ∧
        name = (tree.namesFrom path).getLast?.getD "" ∧
        Path.staysInPlace name = false ∧ name ≠ ".." ∧
        written = { tree with
          root := parent.replace
            (.directory (Table.insert name (.file content) parent.node.entries)) } := by
  unfold write at h
  split at h
  · cases h
  · obtain ⟨parent, hparent, h⟩ := bind_eq_ok h
    split at h
    · cases h
    · dsimp only at h
      split at h
      · cases h
      · rename_i hname
        split at h
        · cases h
        · rw [Bool.or_eq_true, not_or, decide_eq_true_iff] at hname
          exact ⟨parent, _, hparent, rfl, Bool.eq_false_iff.mpr hname.1, hname.2,
            (Except.ok.inj h).symm⟩

/-- A tree stays proper when a file is written. -/
theorem Proper.write (h : tree.Proper) {content : Codec.Bytes} {written : FileTree}
    (hwrite : tree.write path content = .ok written) : written.Proper := by
  obtain ⟨parent, name, hparent, hname, hleads, hdown, rfl⟩ := exists_of_write hwrite
  have hroot : FileLocation.Proper ⟨tree.root, []⟩ := ⟨h.root, fun _ h => absurd h List.not_mem_nil⟩
  have hproper := hroot.follow hparent
  have hslash : '/' ∉ name.toList := by
    cases hlast : (tree.namesFrom path).getLast? with
    | none =>
        rw [hname, hlast]
        exact List.not_mem_nil
    | some last =>
        rw [hname, hlast]
        exact h.slash_notMem last (List.mem_of_getLast? hlast)
  exact ⟨hproper.replace (hproper.node.insert ⟨hleads, hdown, hslash⟩ (.file content)), h.working⟩

end FileTree

end Remodel
