import Mathlib.Data.List.Nodup
import RustAdmin.Clipboard.FileTree
import RustAdmin.Support.Run

/-!
# The handles of open files

The calls of the file system on `FuseServer` (`platform/unix/fuse/cs.rs`).  A
handle is a number of one counter; the node that was opened keeps it in a vector
that `have_handler` and `unregister` search, and a new list of files brings new
nodes.

## Strategy

Every call does one of four things to the handles (`Effect`, one lemma for each call):
nothing, open a node, release a handle, or start with new nodes.  The invariant
`HandlesInv` says that each vector ascends below the number of handles allocated and
holds exactly the handles that the history says are held (`Held`).  It is kept along
the effects alone, where `opens_iff` and `releases_iff` read a call and its reply off
as one of them.  A strictly increasing vector is one in which the binary searches find
what is there (`searched_of_sorted`), so the fence follows from what is held.
-/

namespace RustAdmin.Clipboard

open RustAdmin.Support

/-! ## The handles of a node -/

def FileHandles.addHandler (handles : FileHandles) (fh : ℕ) : FileHandles :=
  { handles with handlers := handles.handlers ++ [fh] }

def FileHandles.haveHandler (handles : FileHandles) (fh : ℕ) : Bool :=
  (binarySearch handles.handlers fh).isSome

/-- `unregister`; `none` for an invalid handler. -/
def FileHandles.unregister (handles : FileHandles) (fh : ℕ) : Option FileHandles :=
  (binarySearch handles.handlers fh).map fun idx =>
    { handles with handlers := handles.handlers.eraseIdx idx }

/-! ## The calls -/

inductive Errno
  | noent
  | notdir
  | nfile
  | busy
  | badf
  | io
deriving DecidableEq, Repr

inductive Reply
  | opened (fh : ℕ)
  | data (bytes : List UInt8)
  | directory (entries : List (ℕ × FileType × String))
  | ok
  | error (errno : Errno)
  | loaded (result : Except FileError Unit)

/-- `files.get(ino as usize - 1)`. -/
def FuseServer.entry (server : FuseServer) : ℕ → Option TreeNode
  | 0 => none
  | place + 1 => server.files[place]?

def FuseServer.setHandles (server : FuseServer) (ino : ℕ) (handles : FileHandles) : FuseServer :=
  { server with
    files := server.files.modify (ino - 1) fun node => { node with fileHandlers := handles } }

/-- `open` and `opendir` for the kind of node that they open. -/
def FuseServer.openNode (kind : FileType) (wrongKind : Errno) (server : FuseServer) (ino : ℕ) :
    Reply × FuseServer :=
  match server.entry ino with
  | none => (.error .noent, server)
  | some entry =>
      if entry.attributes.kind ≠ kind then (.error wrongKind, server)
      else if entry.fileHandlers.gc then (.error .busy, server)
      else
        -- `alloc_fd`
        let fh := server.fileHandleCounter
        let server := { server with fileHandleCounter := (fh + 1) % 2 ^ 64 }
        (.opened fh, server.setHandles ino (entry.fileHandlers.addHandler fh))

def FuseServer.opendir : FuseServer → ℕ → Reply × FuseServer :=
  FuseServer.openNode .directory .notdir

/-- `open`. -/
def FuseServer.openFile : FuseServer → ℕ → Reply × FuseServer :=
  FuseServer.openNode .file .nfile

/-- The entries of a directory: itself, its parent, its children. -/
def FuseServer.directoryEntries (server : FuseServer) (ino : ℕ) (entry : TreeNode) :
    List (ℕ × FileType × String) :=
  let children := entry.children.filterMap fun inode =>
    (server.entry inode).map fun child => (inode, child.attributes.kind, child.name)
  (ino, .directory, ".") :: (entry.parent.toList.map fun parent => (parent, .directory, "..")) ++
    children

/-- `readdir`; the reply has room for some entries. -/
def FuseServer.readdir (server : FuseServer) (ino fh offset room : ℕ) : Reply :=
  match server.entry ino with
  | none => .error .noent
  | some entry =>
      if entry.fileHandlers.haveHandler fh = false then .error .badf
      else if entry.attributes.kind ≠ .directory then .error .notdir
      else .directory (((server.directoryEntries ino entry).drop offset).take room)

/-- `read`, with what `read_node` returns for the node. -/
def FuseServer.read (server : FuseServer) (readNode : TreeNode → Option (List UInt8))
    (ino fh : ℕ) : Reply :=
  match server.entry ino with
  | none => .error .noent
  | some entry =>
      if entry.fileHandlers.haveHandler fh = false then .error .badf
      else if entry.attributes.kind ≠ .file then .error .nfile
      else if entry.fileHandlers.gc then .error .busy
      else
        match readNode entry with
        | none => .error .io
        | some bytes => .data bytes

def FuseServer.releasedir (server : FuseServer) (ino fh : ℕ) : Reply × FuseServer :=
  match server.entry ino with
  | none => (.error .noent, server)
  | some entry =>
      if entry.attributes.kind ≠ .directory then (.error .notdir, server)
      else if entry.fileHandlers.haveHandler fh = false then (.error .badf, server)
      else
        -- the result of `unregister` is dropped
        match entry.fileHandlers.unregister fh with
        | none => (.ok, server)
        | some handles => (.ok, server.setHandles ino handles)

def FuseServer.release (server : FuseServer) (ino fh : ℕ) : Reply × FuseServer :=
  match server.entry ino with
  | none => (.error .noent, server)
  | some entry =>
      match entry.fileHandlers.unregister fh with
      | none => (.error .badf, server)
      | some handles => (.ok, server.setHandles ino handles)

/-- `init`: an empty server gets a root. -/
def FuseServer.init (server : FuseServer) (drawn : Drawn) : FuseServer :=
  if server.files = [] then { server with files := [.newRoot drawn] } else server

def FuseServer.new : FuseServer := ⟨[], 0, 0⟩

/-! ## Runs -/

inductive FuseCall
  | init (drawn : Drawn)
  | loadFileList (draws : ℕ → Drawn) (files : List PathDescription)
  | opendir (ino : ℕ)
  | openFile (ino : ℕ)
  | readdir (ino fh offset room : ℕ)
  | read (readNode : TreeNode → Option (List UInt8)) (ino fh : ℕ)
  | releasedir (ino fh : ℕ)
  | release (ino fh : ℕ)

def FuseServer.answer (server : FuseServer) : FuseCall → Reply × FuseServer
  | .init drawn => (.ok, server.init drawn)
  | .loadFileList draws files =>
      ((server.loadFileList draws files).1 |> .loaded, (server.loadFileList draws files).2)
  | .opendir ino => server.opendir ino
  | .openFile ino => server.openFile ino
  | .readdir ino fh offset room => (server.readdir ino fh offset room, server)
  | .read readNode ino fh => (server.read readNode ino fh, server)
  | .releasedir ino fh => server.releasedir ino fh
  | .release ino fh => server.release ino fh

/-- A call and its reply. -/
abbrev Answer := FuseCall × Reply

def FuseStep (server : FuseServer) (answer : Answer) (server' : FuseServer) : Prop :=
  server.answer answer.1 = (answer.2, server')

/-- The call opened the inode with this handle. -/
def Opens (ino fh : ℕ) (answer : Answer) : Prop :=
  (answer.1 = .opendir ino ∨ answer.1 = .openFile ino) ∧ answer.2 = .opened fh

/-- The call released this handle of the inode. -/
def Releases (ino fh : ℕ) (answer : Answer) : Prop :=
  (answer.1 = .releasedir ino fh ∨ answer.1 = .release ino fh) ∧ answer.2 = .ok

/-- The call brought a new list of files. -/
def Replaces (answer : Answer) : Prop := answer.2 = .loaded (.ok ())

/-- The inode was opened with this handle, and since then the handle was not
released and no new list came. -/
def Held (ino fh : ℕ) (answers : List Answer) : Prop :=
  Since (fun _ => Opens ino fh) (fun answer => Replaces answer ∨ Releases ino fh answer) answers

def isOpened : Answer → Bool
  | (_, .opened _) => true
  | _ => false

/-- How many handles were allocated. -/
def allocated (answers : List Answer) : ℕ := answers.countP isOpened
/-! ## What a call does -/

theorem unregister_eq_some {handles handles' : FileHandles} {fh : ℕ}
    (h : handles.unregister fh = some handles') :
    ∃ idx, handles.handlers[idx]? = some fh ∧
      handles'.handlers = handles.handlers.eraseIdx idx := by
  obtain ⟨idx, hidx, rfl⟩ := Option.map_eq_some_iff.mp h
  refine ⟨idx, ?_, rfl⟩
  unfold binarySearch at hidx
  dsimp only at hidx
  split at hidx
  · next hfound =>
      obtain rfl := Option.some.inj hidx
      exact hfound
  · simp at hidx

/-- What a call can do to the handles: nothing, open a node, release a handle of
a node, or start with new nodes. -/
inductive Effect (server : FuseServer) (answer : Answer) (server' : FuseServer) : Prop
  | none (hserver : server' = server) (hopened : isOpened answer = false)
      (hreplaces : ¬ Replaces answer) (hreleases : ∀ ino fh, ¬ Releases ino fh answer)
  | opened (place : ℕ) (node : TreeNode) (hnode : server.files[place]? = some node)
      (hopens : Opens (place + 1) server.fileHandleCounter answer)
      (hserver : server' = FuseServer.setHandles
        { server with fileHandleCounter := (server.fileHandleCounter + 1) % 2 ^ 64 }
        (place + 1) (node.fileHandlers.addHandler server.fileHandleCounter))
  | released (place fh : ℕ) (node : TreeNode) (hnode : server.files[place]? = some node)
      (handles : FileHandles) (hhandles : node.fileHandlers.unregister fh = some handles)
      (hreleases : Releases (place + 1) fh answer)
      (hserver : server' = server.setHandles (place + 1) handles)
  | started (hopened : isOpened answer = false)
      (hreplaces : Replaces answer ∨ server.files = [])
      (hcounter : server'.fileHandleCounter = server.fileHandleCounter)
      (hempty : ∀ node ∈ server'.files, node.fileHandlers = .new)

theorem effect_none {server server' : FuseServer} {call : FuseCall} {r reply : Reply}
    (heq : (r, server) = (reply, server')) (hopened : isOpened (call, r) = false)
    (hreplaces : r ≠ .loaded (.ok ())) (hreleases : ∀ ino fh, ¬ Releases ino fh (call, r)) :
    Effect server (call, reply) server' := by
  obtain ⟨rfl, rfl⟩ := Prod.mk.inj heq
  exact .none rfl hopened hreplaces hreleases

theorem failed_effect {server server' : FuseServer} {call : FuseCall} {errno : Errno}
    {reply : Reply} (heq : (.error errno, server) = (reply, server')) :
    Effect server (call, reply) server' :=
  effect_none heq rfl (by simp) (by simp [Releases])

theorem openNode_effect {kind : FileType} {wrongKind : Errno} {server server' : FuseServer}
    {ino : ℕ} {call : FuseCall} {reply : Reply}
    (hcall : call = .opendir ino ∨ call = .openFile ino)
    (h : server.openNode kind wrongKind ino = (reply, server')) :
    Effect server (call, reply) server' := by
  unfold FuseServer.openNode at h
  cases ino with
  | zero => exact failed_effect h
  | succ place =>
      cases hnode : server.files[place]? with
      | none =>
          simp only [FuseServer.entry, hnode] at h
          exact failed_effect h
      | some node =>
          simp only [FuseServer.entry, hnode] at h
          split at h
          · exact failed_effect h
          · split at h
            · exact failed_effect h
            · obtain ⟨rfl, rfl⟩ := Prod.mk.inj h
              exact .opened place node hnode ⟨hcall, rfl⟩ rfl

theorem init_effect (server : FuseServer) (drawn : Drawn) :
    Effect server (.init drawn, .ok) (server.init drawn) := by
  by_cases hempty : server.files = []
  · refine .started rfl (.inr hempty) ?_ ?_
    · simp only [FuseServer.init, if_pos hempty]
    · simp only [FuseServer.init, if_pos hempty]
      simp [TreeNode.newRoot]
  · refine .none ?_ rfl (by simp [Replaces]) (by simp [Releases])
    simp only [FuseServer.init, if_neg hempty]

theorem loadFileList_effect (server : FuseServer) (draws : ℕ → Drawn)
    (files : List PathDescription) :
    Effect server (.loadFileList draws files, .loaded (server.loadFileList draws files).1)
      (server.loadFileList draws files).2 := by
  cases hbuild : buildTree draws files with
  | error e =>
      refine .none ?_ rfl ?_ (by simp [Releases])
      · simp only [FuseServer.loadFileList, hbuild]
      · simp [Replaces, FuseServer.loadFileList, hbuild]
  | ok nodes =>
      refine .started rfl (.inl ?_) ?_ ?_
      · simp [Replaces, FuseServer.loadFileList, hbuild]
      · simp only [FuseServer.loadFileList, hbuild]
      · simp only [FuseServer.loadFileList, hbuild]
        exact (buildTree_wellFormed hbuild).closed

/-- What a call that only reads replies. -/
def Reads (reply : Reply) : Prop :=
  (∀ fh, reply ≠ .opened fh) ∧ ∀ result, reply ≠ .loaded result

theorem reads_readdir (server : FuseServer) (ino fh offset room : ℕ) :
    Reads (server.readdir ino fh offset room) := by
  unfold FuseServer.readdir
  split
  · simp [Reads]
  · split
    · simp [Reads]
    · split <;> simp [Reads]

theorem reads_read (server : FuseServer) (readNode : TreeNode → Option (List UInt8))
    (ino fh : ℕ) : Reads (server.read readNode ino fh) := by
  unfold FuseServer.read
  split
  · simp [Reads]
  · split
    · simp [Reads]
    · split
      · simp [Reads]
      · split
        · simp [Reads]
        · split <;> simp [Reads]

theorem Reads.effect {server server' : FuseServer} {call : FuseCall} {r reply : Reply}
    (hreads : Reads r) (heq : (r, server) = (reply, server'))
    (hreleases : ∀ ino fh, ¬ Releases ino fh (call, r)) :
    Effect server (call, reply) server' := by
  refine effect_none heq ?_ (hreads.2 _) hreleases
  cases r with
  | opened fh => exact absurd rfl (hreads.1 fh)
  | _ => rfl

theorem releasedir_effect {server server' : FuseServer} {ino fh : ℕ} {reply : Reply}
    (h : server.releasedir ino fh = (reply, server')) :
    Effect server (.releasedir ino fh, reply) server' := by
  cases ino with
  | zero => exact failed_effect h
  | succ place =>
      unfold FuseServer.releasedir FuseServer.entry at h
      cases hnode : server.files[place]? with
      | none =>
          simp only [hnode] at h
          exact failed_effect h
      | some node =>
          simp only [hnode] at h
          split at h
          · exact failed_effect h
          · split at h
            · exact failed_effect h
            · next hhave =>
                cases hhandles : node.fileHandlers.unregister fh with
                | none =>
                    simp only [FileHandles.unregister, Option.map_eq_none_iff] at hhandles
                    simp [FileHandles.haveHandler, hhandles] at hhave
                | some handles =>
                    rw [hhandles] at h
                    obtain ⟨rfl, rfl⟩ := Prod.mk.inj h
                    exact .released place fh node hnode handles hhandles ⟨.inl rfl, rfl⟩ rfl

theorem release_effect {server server' : FuseServer} {ino fh : ℕ} {reply : Reply}
    (h : server.release ino fh = (reply, server')) :
    Effect server (.release ino fh, reply) server' := by
  cases ino with
  | zero => exact failed_effect h
  | succ place =>
      unfold FuseServer.release FuseServer.entry at h
      cases hnode : server.files[place]? with
      | none =>
          simp only [hnode] at h
          exact failed_effect h
      | some node =>
          simp only [hnode] at h
          cases hhandles : node.fileHandlers.unregister fh with
          | none =>
              rw [hhandles] at h
              exact failed_effect h
          | some handles =>
              rw [hhandles] at h
              obtain ⟨rfl, rfl⟩ := Prod.mk.inj h
              exact .released place fh node hnode handles hhandles ⟨.inr rfl, rfl⟩ rfl

theorem answer_effect {server server' : FuseServer} {answer : Answer}
    (h : FuseStep server answer server') : Effect server answer server' := by
  obtain ⟨call, reply⟩ := answer
  cases call with
  | init drawn =>
      obtain ⟨rfl, rfl⟩ := Prod.mk.inj h
      exact init_effect server drawn
  | loadFileList draws files =>
      obtain ⟨rfl, rfl⟩ := Prod.mk.inj h
      exact loadFileList_effect server draws files
  | opendir ino => exact openNode_effect (.inl rfl) h
  | openFile ino => exact openNode_effect (.inr rfl) h
  | readdir ino fh offset room =>
      exact (reads_readdir server ino fh offset room).effect h (by simp [Releases])
  | read readNode ino fh =>
      exact (reads_read server readNode ino fh).effect h (by simp [Releases])
  | releasedir ino fh => exact releasedir_effect h
  | release ino fh => exact release_effect h

/-! ## Which handles are there -/

/-- The node of the inode has this handle. -/
def FuseServer.Has (server : FuseServer) (ino fh : ℕ) : Prop :=
  ∃ node, server.entry ino = some node ∧ fh ∈ node.fileHandlers.handlers

theorem mem_setHandles {server : FuseServer} {place : ℕ} {handles : FileHandles}
    {node' : TreeNode} (h : node' ∈ (server.setHandles (place + 1) handles).files) :
    (∃ node ∈ server.files, node' = node) ∨ node'.fileHandlers = handles := by
  obtain ⟨k, hk⟩ := List.mem_iff_getElem?.mp h
  simp only [FuseServer.setHandles, Nat.add_sub_cancel, List.getElem?_modify] at hk
  obtain ⟨node, hnode, rfl⟩ := Option.map_eq_some_iff.mp hk
  split
  · exact .inr rfl
  · exact .inl ⟨node, List.mem_of_getElem? hnode, rfl⟩

theorem has_setHandles {server : FuseServer} {place : ℕ} {node : TreeNode}
    (hnode : server.files[place]? = some node) (handles : FileHandles) (ino fh : ℕ) :
    (server.setHandles (place + 1) handles).Has ino fh ↔
      ino = place + 1 ∧ fh ∈ handles.handlers ∨ ino ≠ place + 1 ∧ server.Has ino fh := by
  cases ino with
  | zero => simp [FuseServer.Has, FuseServer.entry]
  | succ k =>
      have hentry : (server.setHandles (place + 1) handles).entry (k + 1) =
          (server.files[k]?).map fun n =>
            if place = k then { n with fileHandlers := handles } else n := by
        simp only [FuseServer.entry, FuseServer.setHandles, Nat.add_sub_cancel,
          List.getElem?_modify]
        rfl
      unfold FuseServer.Has
      rw [hentry]
      by_cases hk : place = k
      · subst hk
        simp [hnode]
      · have hne : ¬ k = place := fun h => hk h.symm
        simp [FuseServer.entry, hk, hne]

theorem has_iff {server : FuseServer} {place : ℕ} {node : TreeNode}
    (hnode : server.files[place]? = some node) (fh : ℕ) :
    server.Has (place + 1) fh ↔ fh ∈ node.fileHandlers.handlers := by
  simp [FuseServer.Has, FuseServer.entry, hnode]

/-- Removing the place of a value from a strictly increasing list removes the value. -/
theorem mem_eraseIdx_of_sorted {values : List ℕ} (hsorted : values.Pairwise (· < ·))
    {idx value : ℕ} (hidx : values[idx]? = some value) (other : ℕ) :
    other ∈ values.eraseIdx idx ↔ other ∈ values ∧ other ≠ value := by
  rw [List.mem_eraseIdx_iff_getElem?]
  constructor
  · rintro ⟨i, hne, hi⟩
    refine ⟨List.mem_of_getElem? hi, ?_⟩
    rintro rfl
    obtain hlt | hgt := Nat.lt_or_gt_of_ne hne
    · exact absurd (lt_of_getElem? hsorted hi hidx hlt) (lt_irrefl _)
    · exact absurd (lt_of_getElem? hsorted hidx hi hgt) (lt_irrefl _)
  · rintro ⟨hmem, hne⟩
    obtain ⟨i, hi⟩ := List.mem_iff_getElem?.mp hmem
    refine ⟨i, ?_, hi⟩
    rintro rfl
    exact hne (Option.some.inj (hi.symm.trans hidx))

/-- The handles of every node ascend below the number of handles allocated, and
they are the ones that are held. -/
structure HandlesInv (answers : List Answer) (server : FuseServer) : Prop where
  counter : server.fileHandleCounter = allocated answers % 2 ^ 64
  sorted : ∀ node ∈ server.files, node.fileHandlers.handlers.Pairwise (· < ·)
  below : ∀ node ∈ server.files, ∀ fh ∈ node.fileHandlers.handlers, fh < allocated answers
  held : ∀ ino fh, Held ino fh answers ↔ server.Has ino fh

theorem held_concat (ino fh : ℕ) (answers : List Answer) (answer : Answer) :
    Held ino fh (answers ++ [answer]) ↔
      Opens ino fh answer ∨
        Held ino fh answers ∧ ¬ (Replaces answer ∨ Releases ino fh answer) := since_concat

theorem allocated_concat (answers : List Answer) (answer : Answer) :
    allocated (answers ++ [answer]) =
      allocated answers + if isOpened answer then 1 else 0 := by
  unfold allocated
  rw [List.countP_append, List.countP_singleton]

theorem not_opens {answer : Answer} (h : isOpened answer = false) (ino fh : ℕ) :
    ¬ Opens ino fh answer := by
  rintro ⟨-, hreply⟩
  obtain ⟨call, reply⟩ := answer
  obtain rfl : reply = .opened fh := hreply
  simp [isOpened] at h

/-- An answer opens one inode with one handle. -/
theorem opens_iff {answer : Answer} {ino fh : ℕ} (h : Opens ino fh answer) (ino' fh' : ℕ) :
    Opens ino' fh' answer ↔ ino' = ino ∧ fh' = fh := by
  constructor
  · rintro ⟨hcall, hreply⟩
    have hfh : fh' = fh := Reply.opened.inj (hreply.symm.trans h.2)
    refine ⟨?_, hfh⟩
    obtain hopen | hopen := h.1 <;> rw [hopen] at hcall <;> simpa [eq_comm] using hcall
  · rintro ⟨rfl, rfl⟩
    exact h

/-- An answer releases one handle of one inode. -/
theorem releases_iff {answer : Answer} {ino fh : ℕ} (h : Releases ino fh answer) (ino' fh' : ℕ) :
    Releases ino' fh' answer ↔ ino' = ino ∧ fh' = fh := by
  constructor
  · rintro ⟨hcall, -⟩
    obtain hrelease | hrelease := h.1 <;> rw [hrelease] at hcall <;>
      simpa [eq_comm] using hcall
  · rintro ⟨rfl, rfl⟩
    exact h

theorem handlesInv_new : HandlesInv [] .new where
  counter := rfl
  sorted := by simp [FuseServer.new]
  below := by simp [FuseServer.new]
  held := by
    intro ino fh
    refine iff_of_false not_since_nil ?_
    rintro ⟨node, hnode, -⟩
    cases ino <;> simp [FuseServer.entry, FuseServer.new] at hnode

/-- New nodes have no handles. -/
theorem not_has_of_empty {server : FuseServer}
    (hempty : ∀ node ∈ server.files, node.fileHandlers = .new) (ino fh : ℕ) :
    ¬ server.Has ino fh := by
  rintro ⟨node, hnode, hfh⟩
  cases ino with
  | zero => simp [FuseServer.entry] at hnode
  | succ place =>
      rw [hempty node (List.mem_of_getElem? hnode)] at hfh
      simp [FileHandles.new] at hfh

section Step

variable {answers : List Answer} {answer : Answer} {server server' : FuseServer}

theorem HandlesInv.kept (hinv : HandlesInv answers server) (hopened : isOpened answer = false)
    (hreplaces : ¬ Replaces answer) (hreleases : ∀ ino fh, ¬ Releases ino fh answer) :
    HandlesInv (answers ++ [answer]) server := by
  have hcount := allocated_concat answers answer
  rw [hopened] at hcount
  refine ⟨hcount ▸ hinv.counter, hinv.sorted, hcount ▸ hinv.below, ?_⟩
  intro ino fh
  rw [held_concat, ← hinv.held]
  simp [not_opens hopened ino fh, hreplaces, hreleases ino fh]

/-- An opened node has a handle above all that there are, as long as the counter
has not come round. -/
theorem HandlesInv.opened (hinv : HandlesInv answers server) {place : ℕ} {node : TreeNode}
    (hnode : server.files[place]? = some node)
    (hopens : Opens (place + 1) server.fileHandleCounter answer)
    (hbound : allocated (answers ++ [answer]) ≤ 2 ^ 64) :
    HandlesInv (answers ++ [answer])
      (FuseServer.setHandles
        { server with fileHandleCounter := (server.fileHandleCounter + 1) % 2 ^ 64 }
        (place + 1) (node.fileHandlers.addHandler server.fileHandleCounter)) := by
  have hcount := allocated_concat answers answer
  have hopened : isOpened answer = true := by
    obtain ⟨call, reply⟩ := answer
    obtain rfl : reply = _ := hopens.2
    rfl
  rw [hopened, if_pos rfl] at hcount
  have hfresh : server.fileHandleCounter = allocated answers := by
    rw [hinv.counter]
    exact Nat.mod_eq_of_lt (by omega)
  have hmem := List.mem_of_getElem? hnode
  refine ⟨?_, ?_, ?_, ?_⟩
  · rw [hcount, ← hfresh]
    rfl
  · intro node' hnode'
    obtain ⟨node'', hnode'', rfl⟩ | hhandles := mem_setHandles hnode'
    · exact hinv.sorted _ hnode''
    · rw [hhandles]
      refine List.pairwise_append.mpr ⟨hinv.sorted node hmem, List.pairwise_singleton _ _, ?_⟩
      intro fh hfh fresh hfresh'
      obtain rfl : fresh = server.fileHandleCounter := by simpa using hfresh'
      rw [hfresh]
      exact hinv.below node hmem fh hfh
  · intro node' hnode' fh hfh
    rw [hcount]
    obtain ⟨node'', hnode'', rfl⟩ | hhandles := mem_setHandles hnode'
    · exact Nat.lt_succ_of_lt (hinv.below _ hnode'' fh hfh)
    · rw [hhandles] at hfh
      obtain hold | hnew := List.mem_append.mp hfh
      · exact Nat.lt_succ_of_lt (hinv.below node hmem fh hold)
      · obtain rfl : fh = server.fileHandleCounter := by simpa using hnew
        omega
  · intro ino fh
    have hkeep : ¬ (Replaces answer ∨ Releases ino fh answer) := by
      rintro (hreplaces | ⟨-, hok⟩)
      · exact nomatch hopens.2.symm.trans hreplaces
      · exact nomatch hopens.2.symm.trans hok
    rw [held_concat, opens_iff hopens, hinv.held]
    refine Iff.trans ?_ (has_setHandles hnode _ ino fh).symm
    by_cases hino : ino = place + 1
    · subst hino
      simp [hkeep, has_iff hnode, FileHandles.addHandler, or_comm]
    · simp [hino, hkeep]

theorem HandlesInv.released (hinv : HandlesInv answers server) {place fh : ℕ} {node : TreeNode}
    (hnode : server.files[place]? = some node) {handles : FileHandles}
    (hhandles : node.fileHandlers.unregister fh = some handles)
    (hreleases : Releases (place + 1) fh answer) :
    HandlesInv (answers ++ [answer]) (server.setHandles (place + 1) handles) := by
  have hcount := allocated_concat answers answer
  have hopened : isOpened answer = false := by
    obtain ⟨call, reply⟩ := answer
    obtain rfl : reply = .ok := hreleases.2
    rfl
  rw [hopened] at hcount
  have hmem := List.mem_of_getElem? hnode
  obtain ⟨idx, hidx, herase⟩ := unregister_eq_some hhandles
  have hsublist : handles.handlers.Sublist node.fileHandlers.handlers := by
    rw [herase]
    exact List.eraseIdx_sublist _ _
  refine ⟨hcount ▸ hinv.counter, ?_, ?_, ?_⟩
  · intro node' hnode'
    obtain ⟨node'', hnode'', rfl⟩ | hhandles' := mem_setHandles hnode'
    · exact hinv.sorted _ hnode''
    · rw [hhandles']
      exact (hinv.sorted node hmem).sublist hsublist
  · intro node' hnode' fh' hfh
    rw [hcount]
    obtain ⟨node'', hnode'', rfl⟩ | hhandles' := mem_setHandles hnode'
    · exact hinv.below _ hnode'' fh' hfh
    · rw [hhandles'] at hfh
      exact hinv.below node hmem fh' (hsublist.subset hfh)
  · intro ino fh'
    have hreplaces : ¬ Replaces answer := fun h => nomatch hreleases.2.symm.trans h
    rw [held_concat, releases_iff hreleases, has_setHandles hnode, hinv.held, herase,
      mem_eraseIdx_of_sorted (hinv.sorted node hmem) hidx]
    by_cases hino : ino = place + 1
    · subst hino
      simp [not_opens hopened, hreplaces, has_iff hnode]
    · simp [hino, not_opens hopened, hreplaces]

/-- New nodes come without handles, and nothing was held on no nodes. -/
theorem HandlesInv.started (hinv : HandlesInv answers server) (hopened : isOpened answer = false)
    (hreplaces : Replaces answer ∨ server.files = [])
    (hcounter : server'.fileHandleCounter = server.fileHandleCounter)
    (hempty : ∀ node ∈ server'.files, node.fileHandlers = .new) :
    HandlesInv (answers ++ [answer]) server' := by
  have hcount := allocated_concat answers answer
  rw [hopened] at hcount
  refine ⟨?_, ?_, ?_, ?_⟩
  · rw [hcount, hcounter]
    exact hinv.counter
  · intro node hnode
    rw [hempty node hnode]
    exact List.Pairwise.nil
  · intro node hnode fh hfh
    rw [hempty node hnode] at hfh
    simp [FileHandles.new] at hfh
  · intro ino fh
    refine iff_of_false ?_ (not_has_of_empty hempty ino fh)
    rw [held_concat]
    rintro (hopens | ⟨hheld, hkeep⟩)
    · exact not_opens hopened ino fh hopens
    · obtain hreplaces | hnone := hreplaces
      · exact hkeep (.inl hreplaces)
      · refine not_has_of_empty ?_ ino fh ((hinv.held ino fh).mp hheld)
        simp [hnone]

theorem handlesInv_step (hinv : HandlesInv answers server)
    (hstep : FuseStep server answer server')
    (hbound : allocated (answers ++ [answer]) ≤ 2 ^ 64) :
    HandlesInv (answers ++ [answer]) server' := by
  cases answer_effect hstep with
  | none hserver hopened hreplaces hreleases =>
      rw [hserver]
      exact hinv.kept hopened hreplaces hreleases
  | opened place node hnode hopens hserver =>
      rw [hserver]
      exact hinv.opened hnode hopens hbound
  | released place fh node hnode handles hhandles hreleases hserver =>
      rw [hserver]
      exact hinv.released hnode hhandles hreleases
  | started hopened hreplaces hcounter hempty =>
      exact hinv.started hopened hreplaces hcounter hempty

end Step

theorem allocated_mono {answers more : List Answer} :
    allocated answers ≤ allocated (answers ++ more) := by
  unfold allocated
  rw [List.countP_append]
  omega

/-- Every run that allocates at most `2 ^ 64` handles keeps the invariant. -/
theorem handlesInv_run {answers : List Answer} {server : FuseServer}
    (run : Run FuseStep .new answers server) (hbound : allocated answers ≤ 2 ^ 64) :
    HandlesInv answers server := by
  induction run with
  | nil => exact handlesInv_new
  | snoc _ step ih => exact handlesInv_step (ih (allocated_mono.trans hbound)) step hbound

/-! ## The fence -/

/-- The reply of a call that does not come past the handle check. -/
def Refused (reply : Reply) : Prop := reply = .error .noent ∨ reply = .error .badf

theorem refused_read_iff (server : FuseServer) (readNode : TreeNode → Option (List UInt8))
    (ino fh : ℕ) :
    ¬ Refused (server.read readNode ino fh) ↔
      ∃ node, server.entry ino = some node ∧ node.fileHandlers.haveHandler fh = true := by
  unfold FuseServer.read
  cases hentry : server.entry ino with
  | none => simp [Refused]
  | some node =>
      simp only [Option.some.injEq, exists_eq_left']
      split
      · next hhave => simp [Refused, hhave]
      · next hhave =>
          refine iff_of_true ?_ (by simpa using hhave)
          split
          · simp [Refused]
          · split
            · simp [Refused]
            · split <;> simp [Refused]

theorem refused_readdir_iff (server : FuseServer) (ino fh offset room : ℕ) :
    ¬ Refused (server.readdir ino fh offset room) ↔
      ∃ node, server.entry ino = some node ∧ node.fileHandlers.haveHandler fh = true := by
  unfold FuseServer.readdir
  cases hentry : server.entry ino with
  | none => simp [Refused]
  | some node =>
      simp only [Option.some.injEq, exists_eq_left']
      split
      · next hhave => simp [Refused, hhave]
      · next hhave =>
          refine iff_of_true ?_ (by simpa using hhave)
          split <;> simp [Refused]

/-- The searches of a vector of handles find what is there. -/
structure FileHandles.Searched (handles : FileHandles) : Prop where
  sorted : handles.handlers.Pairwise (· < ·)
  have_iff : ∀ fh, handles.haveHandler fh = true ↔ fh ∈ handles.handlers
  invalid_iff : ∀ fh, handles.unregister fh = none ↔ fh ∉ handles.handlers
  unregistered : ∀ fh handles', handles.unregister fh = some handles' →
    ∀ other, other ∈ handles'.handlers ↔ other ∈ handles.handlers ∧ other ≠ fh

theorem searched_of_sorted {handles : FileHandles}
    (hsorted : handles.handlers.Pairwise (· < ·)) : handles.Searched where
  sorted := hsorted
  have_iff := fun _ => isSome_binarySearch_iff hsorted
  invalid_iff := by
    intro fh
    rw [← isSome_binarySearch_iff hsorted, FileHandles.unregister, Option.map_eq_none_iff]
    simp
  unregistered := by
    intro fh handles' h other
    obtain ⟨idx, hidx, herase⟩ := unregister_eq_some h
    rw [herase]
    exact mem_eraseIdx_of_sorted hsorted hidx other

/-- **Handles are fenced by the lists of files.**  In every run that allocates at
most `2 ^ 64` handles a call comes past the handle check exactly with a handle
that is held, and every vector of handles ascends. -/
theorem handles_fenced {answers : List Answer} {server : FuseServer}
    (run : Run FuseStep .new answers server) (hbound : allocated answers ≤ 2 ^ 64) :
    (∀ readNode ino fh,
        ¬ Refused (server.read readNode ino fh) ↔ Held ino fh answers) ∧
      (∀ ino fh offset room,
        ¬ Refused (server.readdir ino fh offset room) ↔ Held ino fh answers) ∧
      ∀ node ∈ server.files, node.fileHandlers.Searched := by
  have hinv := handlesInv_run run hbound
  have hsearched : ∀ node ∈ server.files, node.fileHandlers.Searched := fun node hnode =>
    searched_of_sorted (hinv.sorted node hnode)
  have hhas : ∀ ino fh, (∃ node, server.entry ino = some node ∧
      node.fileHandlers.haveHandler fh = true) ↔ Held ino fh answers := by
    intro ino fh
    rw [hinv.held]
    refine exists_congr fun node => and_congr_right fun hentry => ?_
    cases ino with
    | zero => simp [FuseServer.entry] at hentry
    | succ place => exact (hsearched node (List.mem_of_getElem? hentry)).have_iff fh
  refine ⟨?_, ?_, hsearched⟩
  · intro readNode ino fh
    rw [refused_read_iff, hhas]
  · intro ino fh offset room
    rw [refused_readdir_iff, hhas]

/-- One file of the name `a`, opened with some handles. -/
def oneFile : PathDescription := ⟨0, [97], .file, 0, 0, 0, 0, 0⟩

def openedFile (handlers : List ℕ) (counter : ℕ) : FuseServer where
  files :=
    [(TreeNode.newRoot ⟨0, 0⟩).addChild 2,
      { TreeNode.fromDescription 2 oneFile ⟨0, 0⟩ with
        parent := some 1
        fileHandlers := ⟨handlers, false⟩ }]
  generation := 1
  fileHandleCounter := counter

theorem load_oneFile :
    FuseStep .new (.loadFileList (fun _ => ⟨0, 0⟩) [oneFile], .loaded (.ok ()))
      (openedFile [] 0) := rfl

theorem open_oneFile (handlers : List ℕ) (counter : ℕ) :
    FuseStep (openedFile handlers counter) (.openFile 2, .opened counter)
      (openedFile (handlers ++ [counter]) ((counter + 1) % 2 ^ 64)) := rfl

/-- The file is opened, the list is loaded again, and the file is opened again. -/
def reopened : List Answer :=
  [(.loadFileList (fun _ => ⟨0, 0⟩) [oneFile], .loaded (.ok ())), (.openFile 2, .opened 0),
    (.loadFileList (fun _ => ⟨0, 0⟩) [oneFile], .loaded (.ok ())), (.openFile 2, .opened 1)]

def reopenedFile : FuseServer := { openedFile [1] 2 with generation := 2 }

theorem run_reopened : Run FuseStep .new reopened reopenedFile := by
  have hreload : FuseStep (openedFile [0] 1)
      (.loadFileList (fun _ => ⟨0, 0⟩) [oneFile], .loaded (.ok ()))
      { openedFile [] 1 with generation := 2 } := rfl
  have hreopen : FuseStep { openedFile [] 1 with generation := 2 } (.openFile 2, .opened 1)
      reopenedFile := rfl
  exact (((Run.single load_oneFile).snoc (open_oneFile [] 0)).snoc hreload).snoc hreopen

/-- The handle of the first list is refused after the second, and its own handle passes. -/
theorem handles_fenced_reopened :
    (Refused (reopenedFile.read (fun _ => some []) 2 0) ∧ ¬ Held 2 0 reopened) ∧
      ¬ Refused (reopenedFile.read (fun _ => some []) 2 1) ∧ Held 2 1 reopened := by
  have hread := (handles_fenced run_reopened (by decide)).1 (fun _ => some []) 2
  have hrefused : Refused (reopenedFile.read (fun _ => some []) 2 0) := by
    simp [FuseServer.read, FuseServer.entry, reopenedFile, openedFile, FileHandles.haveHandler,
      binarySearch, narrow, Refused]
  have hpassed : ¬ Refused (reopenedFile.read (fun _ => some []) 2 1) := by
    simp [FuseServer.read, FuseServer.entry, reopenedFile, openedFile, FileHandles.haveHandler,
      binarySearch, narrow, Refused, TreeNode.fromDescription, InodeAttributes.fromDescription,
      oneFile]
  exact ⟨⟨hrefused, fun hheld => (hread 0).mpr hheld hrefused⟩, hpassed, (hread 1).mp hpassed⟩

/-- The handles can come round: the file is opened and released. -/
theorem exists_run_counter (counter : ℕ) (hcounter : counter < 2 ^ 64) :
    ∃ answers, Run FuseStep .new answers (openedFile [] counter) := by
  induction counter with
  | zero => exact ⟨_, Run.single load_oneFile⟩
  | succ counter ih =>
      obtain ⟨answers, run⟩ := ih (by omega)
      have hopen := open_oneFile [] counter
      rw [Nat.mod_eq_of_lt hcounter, List.nil_append] at hopen
      have hrelease : FuseStep (openedFile [counter] (counter + 1))
          (.release 2 counter, .ok) (openedFile [] (counter + 1)) := by
        have hsearch : binarySearch [counter] counter = some 0 := by simp [binarySearch, narrow]
        simp [FuseStep, FuseServer.answer, FuseServer.release, FuseServer.entry, openedFile,
          FileHandles.unregister, hsearch, FuseServer.setHandles]
      exact ⟨_, (run.snoc hopen).snoc hrelease⟩

/-- The call asked for a new list of files, whether the list was accepted or not. -/
def Loads (answer : Answer) : Prop := ∃ result, answer.2 = .loaded result

/-- A list that is refused leaves the handles, and the number behind the last
handle comes before it. -/
theorem handles_not_fenced :
    (∃ answers server, Run FuseStep .new answers server ∧
        ¬ Refused (server.read (fun _ => some []) 2 0) ∧
        ¬ Since (fun _ => Opens 2 0) (fun answer => Loads answer ∨ Releases 2 0 answer) answers) ∧
      ∃ answers server, Run FuseStep .new answers server ∧
        ∃ node ∈ server.files, ¬ node.fileHandlers.handlers.Pairwise (· < ·) := by
  constructor
  · have hload : FuseStep (openedFile [0] 1)
        (.loadFileList (fun _ => ⟨0, 0⟩) [{ oneFile with name := [dot, dot] }],
          .loaded (.error ⟨[dot, dot]⟩))
        (openedFile [0] 1) := rfl
    refine ⟨_, _, ((Run.single load_oneFile).snoc (open_oneFile [] 0)).snoc hload, ?_, ?_⟩
    · simp [FuseServer.read, FuseServer.entry, openedFile, FileHandles.haveHandler, binarySearch,
        narrow, Refused, TreeNode.fromDescription, InodeAttributes.fromDescription, oneFile]
    · rw [since_concat]
      rintro (⟨-, hopened⟩ | ⟨-, hkeep⟩)
      · simp at hopened
      · exact hkeep (.inl ⟨_, rfl⟩)
  · obtain ⟨answers, run⟩ := exists_run_counter (2 ^ 64 - 1) (by omega)
    refine ⟨_, _, (run.snoc (open_oneFile [] _)).snoc (open_oneFile _ _), _,
      List.mem_cons_of_mem _ (List.mem_singleton_self _), ?_⟩
    simp

end RustAdmin.Clipboard
