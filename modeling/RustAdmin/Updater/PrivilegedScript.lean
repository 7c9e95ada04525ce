import RustAdmin.Support.Attempts
import RustAdmin.Support.ExitHandler
import RustAdmin.Updater.UpdateRequest

/-!
# The privileged update script

`privilegedUpdateScript` runs as root.  It copies the source beside the target, stops the
services, moves the installed app to a backup and the copy to its place, and starts the
services again; a trap on its exit undoes what was done.  Every command may fail, and the
script may be cut short at any of them.

A cut is a stop without the trap: a signal that the trap handles between the move to the
backup and `target_moved=1` is left out.  What only prints or looks something up does not fail,
and neither the source nor the target is inside the other.
-/

namespace RustAdmin.Updater

open RustAdmin.Support

/-! ## Where it runs -/

inductive TempKind
  | staging
  | backup
  deriving DecidableEq

/-- A directory that `mktemp` has made. -/
structure TempRoot where
  kind : TempKind
  index : ℕ
  deriving DecidableEq

/-- Where an app can be: `$staging_app` and `$backup_app` are in their directories. -/
inductive Place
  | source
  | target
  | inRoot (root : TempRoot)
  deriving DecidableEq

/-- The domain of the agent: `gui/$uid` or `user/$uid`. -/
inductive AgentDomain
  | gui
  | user
  deriving DecidableEq

inductive Service
  | daemon
  | agent (domain : AgentDomain)
  deriving DecidableEq

structure ServiceState where
  loaded : Bool
  started : Bool
  deriving DecidableEq

/-- The ways in which an update reports that it could not be undone. -/
inductive RollbackFailure
  | replacementStays
  | backupStays
  | backupMissing
  | servicesDown
  deriving DecidableEq

def RollbackFailure.message : RollbackFailure → String
  | .replacementStays =>
      "UPDATE ROLLBACK FAILED: could not remove the replacement; intact backup remains at "
  | .backupStays => "UPDATE ROLLBACK FAILED: intact backup remains at "
  | .backupMissing => "UPDATE ROLLBACK FAILED: backup is missing at "
  | .servicesDown =>
      "UPDATE ROLLBACK FAILED: could not restore one or more previously running services."

/-- A line on the standard error of the script; a failed rollback names the backup. -/
inductive Report
  | error (message : String)
  | failure (failure : RollbackFailure) (backup : Option TempRoot)
  deriving DecidableEq

structure World (κ : Type) where
  apps : Place → Option (Bundle κ)
  /-- Which directories of `mktemp` there are. -/
  roots : TempRoot → Bool
  /-- How many directories `mktemp` has made. -/
  made : ℕ
  /-- `pwd -P` in the source and in the target. -/
  sourceReal : Option String
  targetReal : Option String
  daemonPlist : Bool
  agentPlist : Bool
  /-- `id -u` of the user. -/
  uid : Option String
  services : Service → ServiceState
  reports : List Report

/-- The failed rollbacks that were reported. -/
def World.failures {κ : Type} (w : World κ) : List RollbackFailure :=
  w.reports.filterMap fun
    | .failure failure _ => some failure
    | .error _ => none

/-! ## Commands -/

/-- The commands whose exit status the script looks at. -/
inductive Action
  | ditto (root : TempRoot)
  | mv (src dst : Place)
  | rmTarget
  | rmRoot (root : TempRoot)
  | chown
  | xattr
  | kill
  | bootout (service : Service)
  | unload (service : Service)
  | bootstrap (service : Service)
  | load (service : Service)
  | kickstart (service : Service)
  deriving DecidableEq

inductive Command
  | look
  | echo (report : Report)
  | mktemp (kind : TempKind)
  | act (action : Action)

def Command.Answer (κ : Type) : Command → Type
  | look => World κ
  | echo _ => Unit
  | mktemp _ => Option TempRoot
  | act _ => Bool

/-- How a command goes: whether it fails, and what a failing one leaves behind. -/
structure Fault (κ : Type) where
  fails : Bool
  leaves : Bool
  left : Option (Bundle κ)
  rest : Option (Bundle κ)

/-- A backup is on the volume of the target, where a move is a rename. -/
def renames : Place → Place → Bool
  | .target, .inRoot root => decide (root.kind = .backup)
  | .inRoot root, .target => decide (root.kind = .backup)
  | _, _ => false

namespace World

variable {κ : Type} (w : World κ) (fault : Fault κ)

def setApp (place : Place) (bundle : Option (Bundle κ)) : World κ :=
  { w with apps := Function.update w.apps place bundle }

def setService (service : Service) (state : ServiceState) : World κ :=
  { w with services := Function.update w.services service state }

/-- `mv`: across volumes it copies and removes, and may leave parts of both; into a bundle
that is there it moves inside. -/
def mv (src dst : Place) : Bool × World κ :=
  match w.apps src with
  | none => (false, w)
  | some bundle =>
      if (w.apps dst).isSome then
        (!fault.fails, (w.setApp src fault.rest).setApp dst fault.left)
      else if !fault.fails then (true, (w.setApp src none).setApp dst (some bundle))
      else if renames src dst then (false, w)
      else (false, (w.setApp src fault.rest).setApp dst fault.left)

def act : Action → Bool × World κ
  | .ditto root =>
      match w.apps .source with
      | none => (false, w.setApp (.inRoot root) fault.left)
      | some bundle =>
          if fault.fails then (false, w.setApp (.inRoot root) fault.left)
          else (true, w.setApp (.inRoot root) (some bundle))
  | .mv src dst => w.mv fault src dst
  | .rmTarget =>
      if fault.fails then (false, w.setApp .target fault.left) else (true, w.setApp .target none)
  | .rmRoot root =>
      if fault.fails then
        (false, { w.setApp (.inRoot root) fault.left with
          roots := Function.update w.roots root fault.leaves })
      else
        (true, { w.setApp (.inRoot root) none with roots := Function.update w.roots root false })
  | .chown =>
      match w.apps .target with
      | none => (false, w)
      | some bundle =>
          if fault.fails then
            (false, w.setApp .target (some { bundle with owned := fault.leaves }))
          else (true, w.setApp .target (some { bundle with owned := true }))
  | .xattr =>
      match w.apps .target with
      | none => (false, w)
      | some bundle =>
          let quarantined := bundle.quarantined && (fault.fails && fault.leaves)
          (!fault.fails, w.setApp .target (some { bundle with quarantined }))
  | .kill =>
      (true, { w with services := fun service => { w.services service with started := false } })
  | .bootout service | .unload service =>
      let state := w.services service
      if fault.fails then
        (false, w.setService service
          ⟨state.loaded && fault.leaves, state.started && fault.leaves⟩)
      else (true, w.setService service ⟨false, false⟩)
  | .bootstrap service | .load service =>
      let state := w.services service
      if fault.fails then
        (false, w.setService service { state with loaded := state.loaded || fault.leaves })
      else (true, w.setService service { state with loaded := true })
  | .kickstart service =>
      let state := w.services service
      if fault.fails || !state.loaded then
        (false, w.setService service { state with started := state.started && fault.leaves })
      else (true, w.setService service { state with started := true })

/-- The directory that `mktemp` makes. -/
def newRoot (kind : TempKind) : TempRoot := ⟨kind, w.made⟩

def mktemp (kind : TempKind) : World κ :=
  { w.setApp (.inRoot (w.newRoot kind)) none with
    roots := Function.update w.roots (w.newRoot kind) true
    made := w.made + 1 }

end World

def machine {κ : Type} : (command : Command) → Fault κ → World κ → command.Answer κ × World κ
  | .look, _, w => (w, w)
  | .echo report, _, w => ((), { w with reports := w.reports ++ [report] })
  | .mktemp kind, fault, w =>
      if fault.fails then (none, w) else (some (w.newRoot kind), w.mktemp kind)
  | .act action, fault, w => w.act fault action

/-! ## The script -/

structure ScriptArguments where
  appName : String
  expectedBundleId : String
  expectedSourceVersion : String
  expectedSourceRevision : String
  expectedTargetVersion : String
  expectedTargetRevision : String

/-- The arguments of `runPrivilegedUpdate`. -/
def UpdateRequest.arguments (request : UpdateRequest) : ScriptArguments where
  appName := request.product.appName
  expectedBundleId := request.product.bundleIdentifier
  expectedSourceVersion := request.sourceInfo.shortVersionString
  expectedSourceRevision := request.sourceInfo.revisionString
  expectedTargetVersion := request.targetInfo.shortVersionString
  expectedTargetRevision := request.targetInfo.revisionString

/-- The variables of the script; an empty text is `none`, and `agent_running` is that there
is an `agent_domain`. -/
structure ScriptVars where
  daemonRunning : Bool := false
  agentDomain : Option AgentDomain := none
  targetMoved : Bool := false
  stagingRoot : Option TempRoot := none
  backupRoot : Option TempRoot := none

/-- An exit of the script, with its status and the variables at that moment. -/
structure ScriptExit where
  status : ℕ
  vars : ScriptVars

abbrev Script (κ ε α : Type) := Program Command (Command.Answer κ) ε α

variable {κ : Type}

/-- `PlistBuddy -c 'Print :key'`, or nothing. -/
def printKey (bundle : Option (Bundle κ)) (key : BundleInfo → Option String) : String :=
  ((bundle.bind (·.info)).bind key).getD ""

def printRevision (bundle : Option (Bundle κ)) : String :=
  printKey bundle fun info => info.rustAdminRevision <|> info.bundleVersion

/-- The message of the first check that fails. -/
def firstFailing (checks : List (Bool × String)) : Option String :=
  (checks.find? fun check => check.1).map (·.2)

variable (args : ScriptArguments) (w : World κ)

def pathChecks : List (Bool × String) :=
  let source := w.apps .source
  let target := w.apps .target
  [(source.isNone, "Update source disappeared before authorization."),
    (source.all (·.info.isNone), "Update source metadata is missing."),
    (source.all (!·.executable), "Update source executable is missing."),
    (target.isNone, "Installed RustAdmin disappeared before authorization."),
    (target.all (·.info.isNone), "Installed RustAdmin metadata is missing."),
    (target.all (!·.executable), "Installed RustAdmin executable is missing.")]

def identityChecks : List (Bool × String) :=
  let source := w.apps .source
  let target := w.apps .target
  [(w.sourceReal.isNone, "Could not resolve the update source before authorization."),
    (w.targetReal.isNone,
      "Could not resolve the installed RustAdmin app before authorization."),
    (decide (w.sourceReal = w.targetReal),
      "Update source and installed RustAdmin resolve to the same bundle."),
    (decide (printKey source (·.bundleIdentifier) ≠ args.expectedBundleId ∨
        printKey target (·.bundleIdentifier) ≠ args.expectedBundleId),
      "RustAdmin product identity changed before authorization."),
    (decide (printKey source (·.executable) ≠ args.appName ∨
        printKey target (·.executable) ≠ args.appName),
      "RustAdmin executable identity changed before authorization."),
    (decide (printKey source (·.packageType) ≠ "APPL" ∨
        printKey target (·.packageType) ≠ "APPL"),
      "RustAdmin bundle type changed before authorization."),
    (decide (printKey source (·.shortVersionString) ≠ args.expectedSourceVersion ∨
        printRevision source ≠ args.expectedSourceRevision ∨
        printKey target (·.shortVersionString) ≠ args.expectedTargetVersion ∨
        printRevision target ≠ args.expectedTargetRevision),
      "RustAdmin version metadata changed before authorization.")]

/-- `validate_paths` and `validate_identity` -/
def refusal : Option String := firstFailing (pathChecks w ++ identityChecks args w)

variable {ε α : Type}

def look : Script κ ε (World κ) := Program.ask Command.look
def echo (report : Report) : Script κ ε Unit := Program.ask (Command.echo report)
def mktemp (kind : TempKind) : Script κ ε (Option TempRoot) := Program.ask (Command.mktemp kind)
def perform (action : Action) : Script κ ε Bool := Program.ask (Command.act action)

/-- `echo … >&2; exit 1` -/
def die (vars : ScriptVars) (message : String) : Script κ ScriptExit α :=
  (echo (.error message)).bind fun _ => .fail ⟨1, vars⟩

/-- `if ! …; then echo … >&2; exit 1; fi` -/
def require (vars : ScriptVars) (action : Action) (message : String) :
    Script κ ScriptExit Unit :=
  (perform action).bind fun ok => if ok then .ret () else die vars message

/-- `( … || … )` -/
def either (first second : Action) : Script κ ε Bool :=
  (perform first).bind fun ok => if ok then .ret true else perform second

/-- `prepare_copy`: the directories of the copy and of the backup. -/
def prepareCopy : Script κ ScriptExit (TempRoot × TempRoot) :=
  (mktemp .staging).bind fun made =>
    match made with
    | none => .fail ⟨1, {}⟩
    | some staging =>
        let vars : ScriptVars := { stagingRoot := some staging }
        (require vars (.ditto staging) "Could not stage the update payload.").bind fun _ =>
          look.bind fun w =>
            if (w.apps (.inRoot staging)).all (!·.executable) then
              die vars "Staged update payload is incomplete."
            else
              (mktemp .backup).bind fun made =>
                match made with
                | none => .fail ⟨1, vars⟩
                | some backup => .ret (staging, backup)

/-- The variables after `discover_state`. -/
def discovered (vars : ScriptVars) : ScriptVars :=
  let installed := w.daemonPlist && w.agentPlist
  { vars with
    daemonRunning := installed && (w.services .daemon).loaded
    agentDomain :=
      if installed && w.uid.isSome then
        if (w.services (.agent .gui)).loaded then some .gui
        else if (w.services (.agent .user)).loaded then some .user
        else none
      else none }

/-- The services that ran, in the order in which they are started again. -/
def ScriptVars.running (vars : ScriptVars) : List Service :=
  (if vars.daemonRunning then [Service.daemon] else []) ++
    vars.agentDomain.toList.map Service.agent

/-- Whether all of them could be done, each of them in turn. -/
def allOf {β : Type} (program : β → Script κ ε Bool) : List β → Script κ ε Bool
  | [] => .ret true
  | b :: rest => (program b).bind fun ok =>
      (allOf program rest).bind fun others => .ret (ok && others)

def stopService (service : Service) : Script κ ε Bool :=
  either (.bootout service) (.unload service)

/-- `stop_services`: the agent is stopped before the daemon. -/
def stopServices (vars : ScriptVars) : Script κ ScriptExit Unit :=
  (allOf stopService vars.running.reverse).bind fun ok =>
    if ok then .ret () else die vars "Could not stop all running RustAdmin services."

def restoreService (service : Service) : Script κ ε Bool :=
  (either (.bootstrap service) (.load service)).bind fun loaded =>
    (perform (.kickstart service)).bind fun started => .ret (loaded && started)

/-- `restore_services`: whether it succeeded. -/
def restoreServices (vars : ScriptVars) : Script κ ε Bool :=
  allOf restoreService vars.running

def replaceApp (vars : ScriptVars) (staging backup : TempRoot) :
    Script κ ScriptExit ScriptVars :=
  (require vars (.mv .target (.inRoot backup))
      "Could not preserve the installed RustAdmin app.").bind fun _ =>
    let vars := { vars with targetMoved := true }
    (require vars (.mv (.inRoot staging) .target)
        "Could not install the staged RustAdmin app.").bind fun _ =>
      (require vars .chown "Could not set ownership on the installed RustAdmin app.").bind
        fun _ => (perform .xattr).bind fun _ => .ret vars

/-- What runs under the trap. -/
def transaction : Script κ ScriptExit ScriptVars :=
  prepareCopy.bind fun (staging, backup) =>
    look.bind fun w =>
      let vars := discovered w { stagingRoot := some staging, backupRoot := some backup }
      (stopServices vars).bind fun _ =>
        (perform .kill).bind fun _ =>
          (replaceApp vars staging backup).bind fun vars =>
            (restoreServices vars).bind fun restored =>
              if restored then .ret vars
              else die vars "Could not restore one or more previously running RustAdmin services."

/-- The removal of a directory, if there is one; a failing one is the end of the script. -/
def cleanup (root : Option TempRoot) : Script κ ℕ Unit :=
  match root with
  | none => .ret ()
  | some root =>
      look.bind fun w =>
        if w.roots root then
          (perform (.rmRoot root)).bind fun ok => if ok then .ret () else .fail 1
        else .ret ()

def cleanupFiles (vars : ScriptVars) : Script κ ℕ Unit :=
  (cleanup vars.stagingRoot).bind fun _ => cleanup vars.backupRoot

/-- Reports that the rollback has failed. -/
def report (failure : RollbackFailure) (backup : Option TempRoot) : Script κ ε Bool :=
  (echo (.failure failure backup)).bind fun _ => .ret false

/-- The backup goes back to its place, where the target was moved: whether it could. -/
def restoreTarget (vars : ScriptVars) : Script κ ℕ Bool :=
  if !vars.targetMoved then .ret true
  else
    match vars.backupRoot with
    | none => .fail 1  -- an unbound variable
    | some backup =>
        look.bind fun w =>
          (if (w.apps .target).isSome then perform .rmTarget else .ret true).bind fun removed =>
            if !removed then report .replacementStays (some backup)
            else
              look.bind fun w =>
                if (w.apps (.inRoot backup)).isNone then report .backupMissing (some backup)
                else
                  (perform (.mv (.inRoot backup) .target)).bind fun ok =>
                    if ok then .ret true else report .backupStays (some backup)

/-- `rollback`, the trap. -/
def rollback (exit : ScriptExit) : Script κ ℕ Unit :=
  (restoreTarget exit.vars).bind fun targetBack =>
    (restoreServices exit.vars).bind fun restored =>
      (if restored then .ret true else report .servicesDown none).bind fun _ =>
        if targetBack && restored then
          (cleanupFiles exit.vars).bind fun _ => .fail exit.status
        else (cleanup exit.vars.stagingRoot).bind fun _ => .fail 1

/-- The script: an exit under the trap goes through the rollback. -/
def privilegedUpdate (args : ScriptArguments) : Script κ ℕ Unit :=
  look.bind fun w =>
    match refusal args w with
    | some message => (echo (.error message)).bind fun _ => .fail 1
    | none => transaction.handled rollback cleanupFiles

end RustAdmin.Updater
