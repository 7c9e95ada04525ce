import RustAdmin.Clipboard.FileList
import RustAdmin.Support.BinarySearch
import RustAdmin.Support.Utf8

/-!
# The file tree

`FuseNode::build_tree` (`platform/unix/fuse/cs.rs`) turns the peer's list of files
into the nodes of the mounted file system.  A node has three numbers: its place
in the vector of nodes, its inode, and the index of its file in the peer's list.

`build_tree` is a fold over the files, so `WellFormed` is proved for every prefix of
the list: `TreeBuild.Inv` adds to it that `sub_root_map` leads to directories that are
there, and `inv_addFile` keeps both over one file.  The work is in
`WellFormed.concat`: a node joins at the end, its parent gets it as a child, and
nothing else changes.  The names are a second pass over the finished tree
(`WellFormed.properNames`), since a node keeps its name.
-/

namespace RustAdmin.Clipboard

open RustAdmin.Support

/-! ## Paths -/

def slash : UInt8 := 47
def dot : UInt8 := 46

/-- `std::path::Component`; the names are any bytes. -/
inductive Component
  | rootDir
  | curDir
  | parentDir
  | normal (name : List UInt8)
deriving DecidableEq, Repr

def componentOf (segment : List UInt8) : Component :=
  if segment = [dot, dot] then .parentDir else .normal segment

/-- `Path::components`.  Two paths are equal if their components are. -/
def components (path : List UInt8) : List Component :=
  let segments := path.splitOnP (· == slash)
  let first : List Component :=
    if path.head? = some slash then [.rootDir]
    else if segments.head? = some [dot] then [.curDir]
    else []
  first ++ (segments.filter fun segment => segment ≠ [] ∧ segment ≠ [dot]).map componentOf

/-- `Path::parent`. -/
def parentOf (path : List Component) : Option (List Component) :=
  match path.getLast? with
  | none | some .rootDir => none
  | some _ => some path.dropLast

/-- `Path::file_name`. -/
def fileNameOf (path : List Component) : Option (List UInt8) :=
  match path.getLast? with
  | some (.normal name) => some name
  | _ => none

/-! ## Nodes -/

def fuseRootId : ℕ := 1

/-- A `FileDescription` whose `name` is any `PathBuf`. -/
structure PathDescription where
  connId : ℤ
  name : List UInt8
  kind : FileType
  lastModified : ℤ
  lastMetadataChanged : ℤ
  creationTime : ℤ
  size : ℕ
  perm : ℕ
deriving DecidableEq, Repr

/-- The description that arrives of a file; its name is text. -/
def FileDescription.toPath (desc : FileDescription) : PathDescription where
  connId := desc.connId
  name := encodeUtf8 desc.name.toList
  kind := desc.kind
  lastModified := desc.lastModified
  lastMetadataChanged := desc.lastMetadataChanged
  creationTime := desc.creationTime
  size := desc.size
  perm := desc.perm

structure InodeAttributes where
  inode : ℕ
  size : ℕ
  lastAccessed : ℤ
  lastModified : ℤ
  lastMetadataChanged : ℤ
  creationTime : ℤ
  kind : FileType
  perm : ℕ
deriving DecidableEq, Repr

/-- The open handles of a node. -/
structure FileHandles where
  handlers : List ℕ
  gc : Bool
deriving DecidableEq, Repr

def FileHandles.new : FileHandles := ⟨[], false⟩

/-- A node of the tree. -/
structure TreeNode extends FuseNode where
  parent : Option ℕ
  name : String
  attributes : InodeAttributes
  children : List ℕ
  fileHandlers : FileHandles
deriving DecidableEq, Repr

/-- What a new node takes from outside: `rand::random` and the clock. -/
structure Drawn where
  streamId : ℤ
  now : ℤ
deriving DecidableEq, Repr

def InodeAttributes.fromDescription (inode : ℕ) (desc : PathDescription) (now : ℤ) :
    InodeAttributes where
  inode := inode
  size := desc.size
  lastAccessed := now
  lastModified := desc.lastModified
  lastMetadataChanged := desc.lastMetadataChanged
  creationTime := desc.creationTime
  kind := desc.kind
  perm := desc.perm

def InodeAttributes.newRoot (now : ℤ) : InodeAttributes where
  inode := fuseRootId
  size := 0
  lastAccessed := now
  lastModified := now
  lastMetadataChanged := now
  creationTime := now
  kind := .directory
  perm := permRwx

def TreeNode.fromDescription (inode : ℕ) (desc : PathDescription) (drawn : Drawn) : TreeNode where
  connId := desc.connId
  streamId := drawn.streamId
  index := inode - 2
  name := (decodeUtf8 desc.name).getD ""
  parent := none
  attributes := .fromDescription inode desc drawn.now
  children := []
  fileHandlers := .new

def TreeNode.newRoot (drawn : Drawn) : TreeNode where
  connId := 0
  streamId := drawn.streamId
  index := 0
  name := "/"
  parent := none
  attributes := .newRoot drawn.now
  children := []
  fileHandlers := .new

def TreeNode.addChild (node : TreeNode) (inode : ℕ) : TreeNode :=
  { node with children := node.children ++ [inode] }

/-! ## The tree -/

/-- `CliprdrError::FileError` for an invalid file name; its texts show the path. -/
structure FileError where
  path : List UInt8
deriving DecidableEq, Repr

/-- The nodes so far and `sub_root_map`, the latest entry first. -/
structure TreeBuild where
  treeList : List TreeNode
  subRootMap : List (List Component × ℕ)
deriving DecidableEq, Repr

def TreeBuild.start (drawn : Drawn) : TreeBuild where
  treeList := [TreeNode.newRoot drawn]
  subRootMap := [([], fuseRootId), ([.rootDir], fuseRootId)]

def TreeBuild.parentInode (b : TreeBuild) (name : List Component) : ℕ :=
  match parentOf name with
  | some parent => (b.subRootMap.lookup parent).getD fuseRootId
  | none => fuseRootId

/-- The body of the loop of `build_tree`. -/
def TreeBuild.addFile (draws : ℕ → Drawn) (b : TreeBuild) (file : PathDescription) :
    Except FileError TreeBuild :=
  let name := components file.name
  let inode := b.treeList.length + fuseRootId
  let parentInode := b.parentInode name
  let treeList := b.treeList.modify (parentInode - 1) (·.addChild inode)
  match fileNameOf name with
  | none => .error ⟨file.name⟩
  | some baseName =>
      let node := TreeNode.fromDescription inode { file with name := baseName } (draws inode)
      .ok
        { treeList := treeList ++ [{ node with parent := some parentInode }]
          subRootMap :=
            if file.kind = .directory then (name, inode) :: b.subRootMap else b.subRootMap }

/-- `build_tree`. -/
def buildTree (draws : ℕ → Drawn) (files : List PathDescription) :
    Except FileError (List TreeNode) :=
  (files.foldlM (TreeBuild.addFile draws) (.start (draws fuseRootId))).map TreeBuild.treeList

/-! ## The server -/

/-- The part of `FuseServer` behind the file system calls. -/
structure FuseServer where
  files : List TreeNode
  generation : ℕ
  fileHandleCounter : ℕ
deriving DecidableEq, Repr

/-- `load_file_list`. -/
def FuseServer.loadFileList (server : FuseServer) (draws : ℕ → Drawn)
    (files : List PathDescription) : Except FileError Unit × FuseServer :=
  match buildTree draws files with
  | .error e => (.error e, server)
  | .ok tree =>
      (.ok (), { server with files := tree, generation := (server.generation + 1) % 2 ^ 64 })
/-! ## One file -/

/-- What `addFile` does with a file that has a name. -/
theorem addFile_eq_ok {draws : ℕ → Drawn} {b b' : TreeBuild} {file : PathDescription}
    (h : b.addFile draws file = .ok b') :
    ∃ baseName, fileNameOf (components file.name) = some baseName ∧
      b'.treeList =
        b.treeList.modify (b.parentInode (components file.name) - 1)
            (·.addChild (b.treeList.length + 1)) ++
          [{ TreeNode.fromDescription (b.treeList.length + 1) { file with name := baseName }
              (draws (b.treeList.length + 1)) with
             parent := some (b.parentInode (components file.name)) }] ∧
      b'.subRootMap =
        if file.kind = .directory then
          (components file.name, b.treeList.length + 1) :: b.subRootMap
        else b.subRootMap := by
  unfold TreeBuild.addFile at h
  dsimp only at h
  split at h
  · simp at h
  · next baseName hbase =>
      obtain rfl := Except.ok.inj h
      exact ⟨baseName, hbase, rfl, rfl⟩

/-- The nodes behind an added file: the new one, and the old ones with the new
inode among the children of its parent. -/
theorem getElem?_added {nodes : List TreeNode} {place inode k : ℕ} {added node' : TreeNode}
    (h : (nodes.modify place (·.addChild inode) ++ [added])[k]? = some node') :
    (k = nodes.length ∧ node' = added) ∨
      ∃ node, nodes[k]? = some node ∧ node' = if place = k then node.addChild inode else node := by
  have hlength : (nodes.modify place (·.addChild inode)).length = nodes.length :=
    List.length_modify ..
  obtain hlt | hge := Nat.lt_or_ge k nodes.length
  · rw [List.getElem?_append_left (by omega), List.getElem?_modify] at h
    obtain ⟨node, hnode, rfl⟩ := Option.map_eq_some_iff.mp h
    exact .inr ⟨node, hnode, rfl⟩
  · rw [List.getElem?_append_right (by omega), hlength] at h
    obtain ⟨hk, hadded⟩ := List.getElem?_eq_some_iff.mp h
    rw [List.length_singleton] at hk
    refine .inl ⟨by omega, ?_⟩
    rw [← hadded]
    simp

theorem getElem?_added_new (nodes : List TreeNode) (place inode : ℕ) (added : TreeNode) :
    (nodes.modify place (·.addChild inode) ++ [added])[nodes.length]? = some added := by
  rw [List.getElem?_append_right (by rw [List.length_modify]), List.length_modify]
  simp

theorem getElem?_added_old {nodes : List TreeNode} {k : ℕ} {node : TreeNode}
    (h : nodes[k]? = some node) (place inode : ℕ) (added : TreeNode) :
    (nodes.modify place (·.addChild inode) ++ [added])[k]? =
      some (if place = k then node.addChild inode else node) := by
  obtain ⟨hlt, -⟩ := List.getElem?_eq_some_iff.mp h
  rw [List.getElem?_append_left (by rwa [List.length_modify]), List.getElem?_modify, h]
  rfl

/-! ## What is kept -/

/-- The child with this inode lies in the directory at this place. -/
def LiesIn (nodes : List TreeNode) (place inode : ℕ) : Prop :=
  2 ≤ inode ∧ ∃ child, nodes[inode - 1]? = some child ∧ child.parent = some (place + 1)

/-- The nodes of a list of files: the three numberings agree, parents come first
and are directories, and the children of a node are the nodes that lie in it. -/
structure WellFormed (files : List PathDescription) (nodes : List TreeNode) : Prop where
  length_eq : nodes.length = files.length + 1
  root : ∃ root, nodes[0]? = some root ∧ root.attributes.inode = fuseRootId ∧
    root.parent = none ∧ root.attributes.kind = .directory ∧ root.name = "/"
  described : ∀ k node, nodes[k + 1]? = some node → ∃ file, files[k]? = some file ∧
    node.connId = file.connId ∧ node.index = k ∧
    (∃ now, node.attributes = .fromDescription (k + 2) file now) ∧
    ∃ baseName, fileNameOf (components file.name) = some baseName ∧
      node.name = (decodeUtf8 baseName).getD ""
  parented : ∀ k node, nodes[k + 1]? = some node → ∃ place parent,
    node.parent = some (place + 1) ∧ place ≤ k ∧ nodes[place]? = some parent ∧
    parent.attributes.kind = .directory
  children : ∀ place node, nodes[place]? = some node → ∀ inode,
    (LiesIn nodes place inode → node.children.count inode = 1) ∧
    (¬ LiesIn nodes place inode → inode ∉ node.children)
  closed : ∀ node ∈ nodes, node.fileHandlers = .new

/-- The entries of `sub_root_map` are directories. -/
def MapsToDirectories (b : TreeBuild) : Prop :=
  ∀ path inode, (path, inode) ∈ b.subRootMap → ∃ place node, inode = place + 1 ∧
    b.treeList[place]? = some node ∧ node.attributes.kind = .directory

structure TreeBuild.Inv (files : List PathDescription) (b : TreeBuild) : Prop where
  nodes : WellFormed files b.treeList
  map : MapsToDirectories b

theorem inv_start (drawn : Drawn) : (TreeBuild.start drawn).Inv [] where
  nodes :=
    { length_eq := rfl
      root := ⟨_, rfl, rfl, rfl, rfl, rfl⟩
      described := by simp [TreeBuild.start]
      parented := by simp [TreeBuild.start]
      children := by
        intro place node hnode inode
        have hnone : ¬ LiesIn (TreeBuild.start drawn).treeList place inode := by
          rintro ⟨hinode, child, hchild, -⟩
          have := (List.getElem?_eq_some_iff.mp hchild).1
          simp only [TreeBuild.start, List.length_singleton] at this
          omega
        obtain ⟨hplace, rfl⟩ := List.getElem?_eq_some_iff.mp hnode
        refine ⟨fun h => absurd h hnone, fun _ => ?_⟩
        simp [TreeBuild.start, TreeNode.newRoot]
      closed := by simp [TreeBuild.start, TreeNode.newRoot] }
  map := by
    intro path inode hmem
    have hinode : inode = 0 + 1 := by
      simp only [TreeBuild.start, List.mem_cons, Prod.mk.injEq, List.not_mem_nil, or_false] at hmem
      obtain ⟨-, rfl⟩ | ⟨-, rfl⟩ := hmem <;> rfl
    exact ⟨0, _, hinode, rfl, rfl⟩

/-- The parent that `build_tree` looks up is a directory of the tree. -/
theorem TreeBuild.Inv.parent_directory {files : List PathDescription} {b : TreeBuild}
    (h : b.Inv files) (name : List Component) :
    ∃ place parent, b.parentInode name = place + 1 ∧ b.treeList[place]? = some parent ∧
      parent.attributes.kind = .directory := by
  obtain ⟨root, hroot, -, -, hdirectory, -⟩ := h.nodes.root
  have hfallback : ∃ place parent, fuseRootId = place + 1 ∧ b.treeList[place]? = some parent ∧
      parent.attributes.kind = .directory := ⟨0, root, rfl, hroot, hdirectory⟩
  unfold TreeBuild.parentInode
  split
  · next path hpath =>
      cases hlookup : b.subRootMap.lookup path with
      | none => exact hfallback
      | some inode =>
          obtain ⟨newer, older, hmap, -⟩ := List.lookup_eq_some_iff.mp hlookup
          exact h.map path inode (by simp [hmap])
  · exact hfallback

/-- The attributes of a node, whether a child has come to it or not. -/
@[simp] theorem ite_addChild_attributes (p : Prop) [Decidable p] (node : TreeNode) (inode : ℕ) :
    (if p then node.addChild inode else node).attributes = node.attributes := by
  split <;> rfl

@[simp] theorem ite_addChild_parent (p : Prop) [Decidable p] (node : TreeNode) (inode : ℕ) :
    (if p then node.addChild inode else node).parent = node.parent := by
  split <;> rfl

@[simp] theorem ite_addChild_name (p : Prop) [Decidable p] (node : TreeNode) (inode : ℕ) :
    (if p then node.addChild inode else node).name = node.name := by
  split <;> rfl

section Added

variable {files : List PathDescription} {nodes : List TreeNode} {place : ℕ} {added : TreeNode}

/-- In the tree with the added node only that node lies in a new place. -/
theorem liesIn_added {j inode : ℕ} (hparent : added.parent = some (place + 1)) :
    LiesIn (nodes.modify place (·.addChild (nodes.length + 1)) ++ [added]) j inode ↔
      LiesIn nodes j inode ∨ 1 ≤ nodes.length ∧ inode = nodes.length + 1 ∧ j = place := by
  constructor
  · rintro ⟨hinode, child, hchild, hparent'⟩
    obtain ⟨hk, rfl⟩ | ⟨node, hnode, rfl⟩ := getElem?_added hchild
    · rw [hparent] at hparent'
      have heq := Option.some.inj hparent'
      exact .inr ⟨by omega, by omega, by omega⟩
    · rw [ite_addChild_parent] at hparent'
      exact .inl ⟨hinode, node, hnode, hparent'⟩
  · rintro (⟨hinode, child, hchild, hparent'⟩ | ⟨hnonempty, rfl, rfl⟩)
    · refine ⟨hinode, _, getElem?_added_old hchild _ _ _, ?_⟩
      rw [ite_addChild_parent]
      exact hparent'
    · refine ⟨by omega, added, ?_, hparent⟩
      rw [Nat.add_sub_cancel]
      exact getElem?_added_new _ _ _ _

/-- No node lies in the place behind the last one. -/
theorem WellFormed.not_liesIn_length (h : WellFormed files nodes) (inode : ℕ) :
    ¬ LiesIn nodes nodes.length inode := by
  rintro ⟨hinode, child, hchild, hparent⟩
  have hchild' : nodes[(inode - 2) + 1]? = some child := by
    rwa [show inode - 2 + 1 = inode - 1 by omega]
  obtain ⟨place, _, hparent', hle, -⟩ := h.parented _ child hchild'
  rw [hparent] at hparent'
  have heq := Option.some.inj hparent'
  have hbound := (List.getElem?_eq_some_iff.mp hchild').1
  omega

/-- A node that gets a child has it once; its other children stay. -/
theorem WellFormed.children_addChild (h : WellFormed files nodes) {old : TreeNode}
    (hplace : nodes[place]? = some old) (inode : ℕ) :
    (LiesIn nodes place inode ∨ inode = nodes.length + 1 →
        (old.addChild (nodes.length + 1)).children.count inode = 1) ∧
      (¬ (LiesIn nodes place inode ∨ inode = nodes.length + 1) →
        inode ∉ (old.addChild (nodes.length + 1)).children) := by
  obtain ⟨hcount, hnot⟩ := h.children place old hplace inode
  by_cases hinode : inode = nodes.length + 1
  · subst hinode
    have hfresh : ¬ LiesIn nodes place (nodes.length + 1) := by
      rintro ⟨-, child, hchild, -⟩
      have := (List.getElem?_eq_some_iff.mp hchild).1
      omega
    have hzero := List.count_eq_zero.mpr (hnot hfresh)
    refine ⟨fun _ => ?_, fun hno => absurd (.inr rfl) hno⟩
    simp only [TreeNode.addChild, List.count_append, hzero, List.count_singleton_self]
  · have hother : inode ∉ [nodes.length + 1] := by simpa using hinode
    have hzero := List.count_eq_zero.mpr hother
    constructor
    · rintro (hlies | heq)
      · simp only [TreeNode.addChild, List.count_append, hcount hlies, hzero]
      · exact absurd heq hinode
    · intro hno
      have hold := hnot fun hlies => hno (.inl hlies)
      simp only [TreeNode.addChild, List.mem_append, not_or]
      exact ⟨hold, hother⟩

/-- A well formed tree with a node for one more file is well formed. -/
theorem WellFormed.concat (h : WellFormed files nodes) {file : PathDescription} {parent : TreeNode}
    (hplace : nodes[place]? = some parent) (hdirectory : parent.attributes.kind = .directory)
    (hparent : added.parent = some (place + 1)) (hchildren : added.children = [])
    (hclosed : added.fileHandlers = .new)
    (hfile : added.connId = file.connId ∧ added.index + 1 = nodes.length ∧
      (∃ now, added.attributes = .fromDescription (nodes.length + 1) file now) ∧
      ∃ baseName, fileNameOf (components file.name) = some baseName ∧
        added.name = (decodeUtf8 baseName).getD "") :
    WellFormed (files ++ [file])
      (nodes.modify place (·.addChild (nodes.length + 1)) ++ [added]) := by
  have hlt : place < nodes.length := (List.getElem?_eq_some_iff.mp hplace).1
  have hlength := h.length_eq
  refine ⟨?_, ?_, ?_, ?_, ?_, ?_⟩
  · simp [hlength]
  · obtain ⟨root, hroot, hinode, hnone, hkind, hname⟩ := h.root
    refine ⟨_, getElem?_added_old hroot _ _ _, ?_⟩
    simp [hinode, hnone, hkind, hname]
  · intro k node hnode
    obtain ⟨hk, rfl⟩ | ⟨old, hold, rfl⟩ := getElem?_added hnode
    · obtain ⟨hconn, hindex, ⟨now, hattributes⟩, hname⟩ := hfile
      refine ⟨file, ?_, hconn, by omega, ⟨now, ?_⟩, hname⟩
      · have hend : k = files.length := by omega
        rw [hend, List.getElem?_concat_length]
      · rw [hattributes, ← hk]
    · obtain ⟨file', hfile', hconn, hindex, ⟨now, hattributes⟩, hname⟩ := h.described k old hold
      have hk : k < files.length := (List.getElem?_eq_some_iff.mp hfile').1
      refine ⟨file', ?_, ?_, ?_, ⟨now, ?_⟩, ?_⟩
      · rwa [List.getElem?_append_left hk]
      · split <;> exact hconn
      · split <;> exact hindex
      · rw [ite_addChild_attributes, hattributes]
      · split <;> exact hname
  · intro k node hnode
    obtain ⟨hk, rfl⟩ | ⟨old, hold, rfl⟩ := getElem?_added hnode
    · refine ⟨place, _, hparent, by omega, getElem?_added_old hplace _ _ _, ?_⟩
      rw [ite_addChild_attributes, hdirectory]
    · obtain ⟨place', parent', hparent', hle, hplace', hdirectory'⟩ := h.parented k old hold
      refine ⟨place', _, ?_, hle, getElem?_added_old hplace' _ _ _, ?_⟩
      · rw [ite_addChild_parent, hparent']
      · rw [ite_addChild_attributes, hdirectory']
  · intro j node hnode inode
    rw [liesIn_added hparent]
    obtain ⟨rfl, rfl⟩ | ⟨old, hold, rfl⟩ := getElem?_added hnode
    · rw [hchildren]
      refine ⟨?_, by simp⟩
      rintro (hlies | ⟨-, -, heq⟩)
      · exact absurd hlies (h.not_liesIn_length inode)
      · omega
    · by_cases hj : place = j
      · subst hj
        have hnonempty : 1 ≤ nodes.length := by omega
        simp only [hnonempty, true_and, and_true, if_true]
        exact h.children_addChild hold inode
      · obtain ⟨hcount, hnot⟩ := h.children j old hold inode
        rw [if_neg hj]
        constructor
        · rintro (hlies | ⟨-, -, heq⟩)
          · exact hcount hlies
          · exact absurd heq.symm hj
        · exact fun hno => hnot fun hlies => hno (.inl hlies)
  · intro node hmem
    obtain ⟨k, hk⟩ := List.mem_iff_getElem?.mp hmem
    obtain ⟨-, rfl⟩ | ⟨old, hold, rfl⟩ := getElem?_added hk
    · exact hclosed
    · have hclosed' := h.closed old (List.mem_of_getElem? hold)
      split <;> exact hclosed'

end Added

theorem inv_addFile {draws : ℕ → Drawn} {files : List PathDescription} {b b' : TreeBuild}
    {file : PathDescription} (hb : b.Inv files) (h : b.addFile draws file = .ok b') :
    b'.Inv (files ++ [file]) := by
  obtain ⟨baseName, hbase, htree, hmap⟩ := addFile_eq_ok h
  obtain ⟨place, parent, hinode, hplace, hdirectory⟩ :=
    hb.parent_directory (components file.name)
  have hlength := hb.nodes.length_eq
  rw [hinode, Nat.add_sub_cancel] at htree
  constructor
  · rw [htree]
    refine hb.nodes.concat hplace hdirectory rfl rfl rfl ⟨rfl, ?_, ⟨_, rfl⟩, baseName, hbase, rfl⟩
    simp only [TreeNode.fromDescription]
    omega
  · intro path inode hmem
    rw [hmap] at hmem
    have hold : ∀ path inode, (path, inode) ∈ b.subRootMap → ∃ place node, inode = place + 1 ∧
        b'.treeList[place]? = some node ∧ node.attributes.kind = .directory := by
      intro path inode hmem
      obtain ⟨place, node, heq, hnode, hkind⟩ := hb.map path inode hmem
      refine ⟨place, _, heq, htree ▸ getElem?_added_old hnode _ _ _, ?_⟩
      rw [ite_addChild_attributes, hkind]
    split at hmem
    · next hkind =>
        obtain hnew | hmem := List.mem_cons.mp hmem
        · obtain ⟨-, rfl⟩ := Prod.mk.inj hnew
          exact ⟨b.treeList.length, _, rfl, htree ▸ getElem?_added_new _ _ _ _, hkind⟩
        · exact hold path inode hmem
    · exact hold path inode hmem

/-- Every tree that is built is well formed. -/
theorem buildTree_wellFormed {draws : ℕ → Drawn} {files : List PathDescription}
    {nodes : List TreeNode} (h : buildTree draws files = .ok nodes) : WellFormed files nodes := by
  have hloop : ∀ b, files.foldlM (TreeBuild.addFile draws) (.start (draws fuseRootId)) = .ok b →
      b.Inv files := by
    clear h
    induction files using List.reverseRecOn with
    | nil =>
        intro b hb
        obtain rfl := Except.ok.inj hb
        exact inv_start _
    | append_singleton files file ih =>
        intro b hb
        rw [List.foldlM_append] at hb
        cases hfront : files.foldlM (TreeBuild.addFile draws) (.start (draws fuseRootId)) with
        | error e =>
            rw [hfront] at hb
            exact nomatch hb
        | ok before =>
            rw [hfront] at hb
            have hstep : before.addFile draws file = .ok b := by
              have hlast : List.foldlM (TreeBuild.addFile draws) before [file] = .ok b := hb
              simpa only [List.foldlM_cons, List.foldlM_nil, bind_pure] using hlast
            exact inv_addFile (ih before hfront) hstep
  unfold buildTree at h
  cases hbuild : files.foldlM (TreeBuild.addFile draws) (.start (draws fuseRootId)) with
  | error e =>
      rw [hbuild] at h
      exact nomatch h
  | ok b =>
      rw [hbuild] at h
      obtain rfl := Except.ok.inj h
      exact (hloop b hbuild).nodes

/-! ## Names -/

/-- A single normal path component. -/
structure NormalName (name : String) : Prop where
  nonempty : name ≠ ""
  noSlash : '/' ∉ name.toList
  notCurDir : name ≠ "."
  notParentDir : name ≠ ".."

/-- The last component of a path is one of its segments. -/
theorem fileNameOf_components {path baseName : List UInt8}
    (h : fileNameOf (components path) = some baseName) :
    baseName ∈ path.splitOnP (· == slash) ∧ baseName ≠ [] ∧ baseName ≠ [dot] ∧
      baseName ≠ [dot, dot] := by
  have hmem : Component.normal baseName ∈ components path := by
    unfold fileNameOf at h
    split at h
    · next name hlast =>
        obtain rfl := Option.some.inj h
        exact List.mem_of_getLast? hlast
    · simp at h
  have hsegment : Component.normal baseName ∈
      ((path.splitOnP (· == slash)).filter fun segment =>
        segment ≠ [] ∧ segment ≠ [dot]).map componentOf := by
    unfold components at hmem
    dsimp only at hmem
    obtain hfirst | hrest := List.mem_append.mp hmem
    · split at hfirst
      · simp at hfirst
      · split at hfirst <;> simp at hfirst
    · exact hrest
  obtain ⟨segment, hfilter, hcomponent⟩ := List.mem_map.mp hsegment
  obtain ⟨hsplit, hproper⟩ := List.mem_filter.mp hfilter
  obtain ⟨hnonempty, hdot⟩ := of_decide_eq_true hproper
  unfold componentOf at hcomponent
  split at hcomponent
  · simp at hcomponent
  · next hdots =>
      obtain rfl := Component.normal.inj hcomponent
      exact ⟨hsplit, hnonempty, hdot, hdots⟩

/-- A last component that is text is a normal name. -/
theorem normalName_of_fileNameOf {path baseName : List UInt8} {name : String}
    (h : fileNameOf (components path) = some baseName) (hname : decodeUtf8 baseName = some name) :
    NormalName name := by
  obtain ⟨hsplit, hnonempty, hdot, hdots⟩ := fileNameOf_components h
  have hbytes := encodeUtf8_of_decodeUtf8 hname
  refine ⟨?_, ?_, ?_, ?_⟩
  · rintro rfl
    exact hnonempty hbytes.symm
  · intro hslash
    have hmem : slash ∈ baseName := by
      rw [← hbytes]
      exact List.mem_flatMap.mpr ⟨'/', hslash, by decide⟩
    simpa using not_mem_of_mem_splitOnP hsplit slash hmem
  · rintro rfl
    exact hdot hbytes.symm
  · rintro rfl
    exact hdots hbytes.symm

/-- The last component of a path that is text is text. -/
theorem exists_decodeUtf8_of_fileNameOf {text : String} {baseName : List UInt8}
    (h : fileNameOf (components (encodeUtf8 text.toList)) = some baseName) :
    ∃ name, decodeUtf8 baseName = some name := by
  obtain ⟨hsplit, -⟩ := fileNameOf_components h
  rw [show slash = UInt8.ofNat '/'.toNat from rfl, splitOnP_encodeUtf8 (by decide)] at hsplit
  obtain ⟨piece, -, rfl⟩ := List.mem_map.mp hsplit
  refine ⟨String.ofList piece, ?_⟩
  simpa using decodeUtf8_encodeUtf8 (String.ofList piece)

/-- The nodes behind the root have normal names, or none where the path of the
file is not text. -/
def ProperNames (files : List PathDescription) (nodes : List TreeNode) : Prop :=
  ∀ k node file, nodes[k + 1]? = some node → files[k]? = some file →
    NormalName node.name ∨ node.name = "" ∧ ∀ text : String, file.name ≠ encodeUtf8 text.toList

theorem WellFormed.properNames {files : List PathDescription} {nodes : List TreeNode}
    (h : WellFormed files nodes) : ProperNames files nodes := by
  intro k node file hnode hfile
  obtain ⟨file', hfile', -, -, -, baseName, hbase, hname⟩ := h.described k node hnode
  obtain rfl : file' = file := Option.some.inj (hfile'.symm.trans hfile)
  cases hdecode : decodeUtf8 baseName with
  | some name =>
      rw [hname, hdecode]
      exact .inl (normalName_of_fileNameOf hbase hdecode)
  | none =>
      rw [hname, hdecode]
      refine .inr ⟨rfl, ?_⟩
      intro text htext
      rw [htext] at hbase
      obtain ⟨name, hsome⟩ := exists_decodeUtf8_of_fileNameOf hbase
      rw [hdecode] at hsome
      exact nomatch hsome

/-- The files of a list that was parsed have names that are text. -/
theorem ProperNames.normalName {descs : List FileDescription} {nodes : List TreeNode}
    (h : ProperNames (descs.map FileDescription.toPath) nodes) {k : ℕ} {node : TreeNode}
    (hnode : nodes[k + 1]? = some node) (hk : k < descs.length) : NormalName node.name := by
  have hfile : (descs.map FileDescription.toPath)[k]? = some descs[k].toPath := by
    simp [hk]
  obtain hnormal | ⟨-, hno⟩ := h k node _ hnode hfile
  · exact hnormal
  · exact absurd rfl (hno descs[k].name)

/-- **The file tree.**  From every list of files either a well formed tree is
built, with normal names behind the root, or the server keeps what it has. -/
theorem loadFileList_wellFormed (server : FuseServer) (draws : ℕ → Drawn)
    (files : List PathDescription) :
    (∀ nodes, buildTree draws files = .ok nodes →
      WellFormed files nodes ∧ ProperNames files nodes ∧
        (server.loadFileList draws files).2.files = nodes) ∧
      ∀ e, buildTree draws files = .error e →
        server.loadFileList draws files = (.error e, server) := by
  constructor
  · intro nodes hnodes
    have hwell := buildTree_wellFormed hnodes
    refine ⟨hwell, hwell.properNames, ?_⟩
    unfold FuseServer.loadFileList
    rw [hnodes]
  · intro e he
    unfold FuseServer.loadFileList
    rw [he]

/-- The directory `a` and a file `b` in it. -/
def nestedFiles : List PathDescription :=
  [⟨0, [97], .directory, 0, 0, 0, 0, 0⟩, ⟨0, [97, slash, 98], .file, 0, 0, 0, 5, 0⟩]

/-- The file lies in the directory, and the directory in the root. -/
theorem loadFileList_wellFormed_nested :
    ∃ nodes, buildTree (fun _ => ⟨0, 0⟩) nestedFiles = .ok nodes ∧
      nodes.map (·.children) = [[2], [3], []] ∧ WellFormed nestedFiles nodes ∧
      ProperNames nestedFiles nodes := by
  have hnodes : buildTree (fun _ => ⟨0, 0⟩) nestedFiles = .ok _ := rfl
  obtain ⟨hwell, hproper, -⟩ :=
    (loadFileList_wellFormed ⟨[], 0, 0⟩ (fun _ => ⟨0, 0⟩) nestedFiles).1 _ hnodes
  exact ⟨_, hnodes, rfl, hwell, hproper⟩

/-- The root has the name `/`, and a file whose name is no text has none. -/
theorem rootName_not_normal :
    (∃ nodes, buildTree (fun _ => ⟨0, 0⟩) [] = .ok nodes ∧
        ∃ root, nodes[0]? = some root ∧ ¬ NormalName root.name) ∧
      ∃ nodes, buildTree (fun _ => ⟨0, 0⟩) [⟨0, [0xff], .file, 0, 0, 0, 0, 0⟩] = .ok nodes ∧
        ∃ node, nodes[1]? = some node ∧ ¬ NormalName node.name := by
  constructor
  · refine ⟨_, rfl, _, rfl, fun h => ?_⟩
    exact h.noSlash (by decide)
  · refine ⟨_, rfl, _, rfl, fun h => ?_⟩
    exact h.nonempty (by decide +kernel)

end RustAdmin.Clipboard
