import Floonet.Disk
import Floonet.Setup

/-!
# The files of the setup wizard

The wizard of a paid mode writes the two secrets to files of their own and
names these in the env file.  No other file, nothing on the screen and no
answer of a call depends on the secrets.
-/

namespace Floonet

open Concurrent Concurrent.Program Streams Text Validation

/-- File calls that stop at the first error, as with `?`. -/
abbrev FileCalls (Value : Type) :=
  ExceptT IoError (Program FileCall FileAnswer) Value

def FileCalls.call (call : FileCall) : FileCalls Unit :=
  ExceptT.mk (perform call)

/-- A call whose failure is ignored. -/
def FileCalls.attempt (call : FileCall) : FileCalls Unit :=
  ExceptT.mk do
    let _ ← perform call
    return .ok ()

open FileCalls

/-- The bytes of a text. -/
def encode (text : String) : List UInt8 :=
  text.toList.flatMap String.utf8EncodeChar

/-- `secrets_dir_for`. -/
def secretsDirFor (envFile : String) : String :=
  Path.join (Path.join (Path.dirOf envFile) "floonet-authority") "secrets"

/-- The secret file of the API token. -/
def tokenPath (target : String) : String :=
  Path.join (secretsDirFor target) "goblinpay_token"

/-- The secret file of the webhook secret. -/
def hookPath (target : String) : String :=
  Path.join (secretsDirFor target) "goblinpay_webhook_secret"

/-- A secret is written to a new file, which is then closed to others. -/
def writeSecretFile (path contents : String) : FileCalls Unit := do
  attempt (.removeFile path)
  call (.write path (encode (trim contents ++ "\n")))
  call (.setPermissions path 0o600)

/-- The paths of the secret files that `run_wizard` writes. -/
def writeSecrets (target : String) (a : Answers) :
    FileCalls (String × String) := do
  if a.payMode = "off" then return (a.tokenFile, a.webhookSecretFile)
  else
    call (.createDirAll (secretsDirFor target))
    attempt (.setPermissions (secretsDirFor target) 0o700)
    writeSecretFile (tokenPath target) a.goblinpayToken
    if a.goblinpayWebhookSecret.isEmpty then
      return (tokenPath target, a.webhookSecretFile)
    else
      writeSecretFile (hookPath target) a.goblinpayWebhookSecret
      return (tokenPath target, hookPath target)

/-- The directory of the env file, unless its path names none. -/
def createParent (dir : Option String) : FileCalls Unit :=
  match dir with
  | some dir => if dir.isEmpty then pure () else call (.createDirAll dir)
  | none => pure ()

/-- The env file, with the directory it lies in. -/
def writeEnv (target : String) (a : Answers) : FileCalls Unit := do
  createParent (Path.parent target)
  call (.write target (encode (renderEnv a)))

section Wizard

variable {Out : Type} (tables : CaseTables) (w : Writer Out)

/-- What `run_wizard` says at its end. -/
def report (target : String) (a : Answers) : Dialogue Out Unit := do
  if !a.tokenFile.isEmpty then
    Dialogue.print w
      s!"Wrote the GoblinPay token to {a.tokenFile} (mode 0600, root only).\n"
  Dialogue.print w s!"\nWrote {target}. Starting up...\n\n"

/-- `run_wizard` from the answers on. -/
def writeAnswers (target : String) (a : Answers) (streams : Reader × Out) :
    FileCalls (String × Reader × Out) := do
  let (tokenFile, webhookSecretFile) ← writeSecrets target a
  let a := { a with
    tokenFile := tokenFile
    webhookSecretFile := webhookSecretFile }
  writeEnv target a
  let ((), streams) ← liftExcept ((report w target a).run streams)
  return (target, streams)

/-- Ask, then write. -/
def runWizard (target : String) (hidden : Bool) (streams : Reader × Out) :
    FileCalls (String × Reader × Out) := do
  let (a, streams) ←
    liftExcept ((collectAnswers tables w hidden).run streams)
  writeAnswers w target a streams

end Wizard

/-! ## The secrets -/

/-- The paths of the secret files and the secrets in them. -/
def Answers.secretFiles (a : Answers) (target : String) :
    List (String × String) :=
  if a.payMode = "off" then []
  else if a.goblinpayWebhookSecret.isEmpty then
    [(tokenPath target, a.goblinpayToken)]
  else [(tokenPath target, a.goblinpayToken),
    (hookPath target, a.goblinpayWebhookSecret)]

def Answers.secretPaths (a : Answers) (target : String) : List String :=
  (a.secretFiles target).map Prod.fst

/-- The answers with the paths of the secret files. -/
def Answers.located (a : Answers) (target : String) : Answers :=
  if a.payMode = "off" then a
  else { a with
    tokenFile := tokenPath target
    webhookSecretFile := if a.goblinpayWebhookSecret.isEmpty then
      a.webhookSecretFile else hookPath target }

/-- The same answers to all questions but those for secrets. -/
def Answers.withSecrets (a : Answers) (token secret : String) : Answers :=
  { a with goblinpayToken := token, goblinpayWebhookSecret := secret }

theorem secretPaths_subset {a : Answers} {target path : String}
    (secret : path ∈ a.secretPaths target) :
    path = tokenPath target ∨ path = hookPath target := by
  unfold Answers.secretPaths Answers.secretFiles at secret
  split at secret
  · cases secret
  · split at secret
    · simp only [List.map_cons, List.map_nil, List.mem_singleton] at secret
      exact .inl secret
    · simp only [List.map_cons, List.map_nil, List.mem_cons,
        List.not_mem_nil, or_false] at secret
      exact secret

theorem isName_of_chars {name : String} {chars : List Char}
    (isText : name = String.ofList chars)
    (plain : (!chars.contains '/' && !Path.isNoise chars) = true) :
    Path.IsName name.toList := by
  rw [Bool.and_eq_true, Bool.not_eq_true', Bool.not_eq_true',
    List.contains_eq_mem, decide_eq_false_iff_not, ← toList_eq isText] at plain
  exact ⟨plain.1, plain.2⟩

theorem isName_secrets : Path.IsName "secrets".toList :=
  isName_of_chars rfl (by decide)

theorem secretsDirFor_last (target : String) :
    ∃ c, (secretsDirFor target).toList.getLast? = some c ∧ c ≠ '/' :=
  Path.join_last isName_secrets _

/-- The secrets directory contains the secret files, and is none of them. -/
theorem secretPaths_dirOf {a : Answers} {target path : String}
    (secret : path ∈ a.secretPaths target) :
    Path.dirOf path = secretsDirFor target ∧ path ≠ secretsDirFor target := by
  have authority : Path.IsName "floonet-authority".toList :=
    isName_of_chars rfl (by decide)
  have token : Path.IsName "goblinpay_token".toList :=
    isName_of_chars rfl (by decide)
  have hook : Path.IsName "goblinpay_webhook_secret".toList :=
    isName_of_chars rfl (by decide)
  have names : ∀ name, Path.IsName name.toList →
      Path.dirOf (Path.join (secretsDirFor target) name) =
          secretsDirFor target ∧
        Path.join (secretsDirFor target) name ≠ secretsDirFor target := by
    intro name isName
    obtain ⟨c, last, plain⟩ := secretsDirFor_last target
    obtain ⟨d, above, slash⟩ := Path.join_last authority (Path.dirOf target)
    exact ⟨Path.dirOf_join above slash isName_secrets isName,
      Path.join_ne last plain⟩
  rcases secretPaths_subset secret with same | same
  · rw [same]
    exact names _ token
  · rw [same]
    exact names _ hook

theorem hookPath_ne (target : String) : hookPath target ≠ tokenPath target := by
  obtain ⟨c, last, plain⟩ := secretsDirFor_last target
  intro same
  have chars := congrArg String.toList same
  unfold hookPath tokenPath at chars
  rw [Path.join_toList last plain, Path.join_toList last plain,
    List.append_cancel_left_eq, List.cons.injEq, String.toList_inj] at chars
  exact absurd chars.2 (by decide)

theorem target_ne {a : Answers} {target path : String}
    (secret : path ∈ a.secretPaths target) : target ≠ path := by
  intro same
  have inside := (secretPaths_dirOf secret).1
  rw [← same] at inside
  have authority := Path.join_length (Path.dirOf target) "floonet-authority"
  have secrets := Path.join_length
    (Path.join (Path.dirOf target) "floonet-authority") "secrets"
  have letters : "secrets".toList.length = 7 := by
    rw [toList_eq (rfl : "secrets" = String.ofList _)]
    rfl
  change _ ≤ (secretsDirFor target).toList.length at secrets
  rw [← inside] at secrets
  omega

/-! ## Two disks that differ in the secrets -/

/-- The calls differ at most in what they write to a secret file. -/
inductive FileCall.Alike (secret : List String) : FileCall → FileCall → Prop
  | same (call : FileCall) : Alike secret call call
  | secret {path : String} (member : path ∈ secret)
      (contents contents' : List UInt8) :
      Alike secret (.write path contents) (.write path contents')

/-- The machines differ at most in the contents of secret files. -/
structure Guarded (secret : List String) (machine machine' : Machine) :
    Prop where
  faults : machine.faults = machine'.faults
  dir : machine.disk.dir = machine'.disk.dir
  modes : ∀ path, (machine.disk.file path).map File.mode =
    (machine'.disk.file path).map File.mode
  elsewhere : ∀ path, path ∉ secret →
    machine.disk.file path = machine'.disk.file path

section Guarded

variable {umask : Umask} {secret : List String} {machine machine' : Machine}

theorem Guarded.refl (secret : List String) (machine : Machine) :
    Guarded secret machine machine :=
  ⟨rfl, rfl, fun _ => rfl, fun _ _ => rfl⟩

theorem filled_mode (umask : Umask) (disk : Disk) (path : String)
    (contents : List UInt8) (other : String) :
    ((disk.filled umask path contents).file other).map File.mode =
      if other = path then
        some (((disk.file path).map File.mode).getD umask.fileMode)
      else (disk.file other).map File.mode := by
  unfold Disk.filled
  dsimp only
  rw [Function.update_apply]
  split <;> rfl

/-- A write that differs at most in what it writes to a secret file. -/
theorem Guarded.filled (guarded : Guarded secret machine machine')
    {path : String} {contents contents' : List UInt8}
    (alike : path ∈ secret ∨ contents = contents')
    (rest : List (Option Fault)) :
    Guarded secret ⟨machine.disk.filled umask path contents, rest⟩
      ⟨machine'.disk.filled umask path contents', rest⟩ where
  faults := rfl
  dir := guarded.dir
  modes := by
    intro other
    rw [filled_mode, filled_mode, guarded.modes path, guarded.modes other]
  elsewhere := by
    intro other absent
    unfold Disk.filled
    dsimp only
    rw [Function.update_apply, Function.update_apply,
      guarded.elsewhere other absent, guarded.modes path]
    split
    · rename_i same
      subst same
      rw [alike.resolve_left absent]
    · rfl

theorem Guarded.fail (guarded : Guarded secret machine machine')
    {call call' : FileCall} (alike : FileCall.Alike secret call call')
    (written : Option Nat) (rest : List (Option Fault)) :
    Guarded secret ⟨machine.disk.fail umask written call, rest⟩
      ⟨machine'.disk.fail umask written call', rest⟩ := by
  have unchanged : Guarded secret ⟨machine.disk, rest⟩ ⟨machine'.disk, rest⟩ :=
    ⟨rfl, guarded.dir, guarded.modes, guarded.elsewhere⟩
  cases alike with
  | same =>
      cases call with
      | write path contents =>
          cases written with
          | none => exact unchanged
          | some count => exact guarded.filled (.inr rfl) rest
      | _ => exact unchanged
  | secret member contents contents' =>
      cases written with
      | none => exact unchanged
      | some count => exact guarded.filled (.inl member) rest

theorem Guarded.succeed (guarded : Guarded secret machine machine')
    {call call' : FileCall} (alike : FileCall.Alike secret call call')
    (rest : List (Option Fault)) :
    Guarded secret ⟨machine.disk.succeed umask call, rest⟩
      ⟨machine'.disk.succeed umask call', rest⟩ := by
  cases alike with
  | secret member contents contents' => exact guarded.filled (.inl member) rest
  | same =>
      cases call with
      | write path contents => exact guarded.filled (.inr rfl) rest
      | createDirAll dir =>
          refine ⟨rfl, ?_, guarded.modes, guarded.elsewhere⟩
          simp only [Disk.succeed, guarded.dir]
      | removeFile path =>
          refine ⟨rfl, guarded.dir, fun other => ?_, fun other absent => ?_⟩
          · simp only [Disk.succeed, Function.update_apply]
            split
            · rfl
            · exact guarded.modes other
          · simp only [Disk.succeed, Function.update_apply,
              guarded.elsewhere other absent]
      | setPermissions path mode =>
          refine ⟨rfl, ?_, fun other => ?_, fun other absent => ?_⟩
          · simp only [Disk.succeed, guarded.dir]
          · simp only [Disk.succeed, Function.update_apply]
            split
            · have present := congrArg (Option.map fun _ => mode)
                (guarded.modes path)
              rw [Option.map_map, Option.map_map] at present
              rw [Option.map_map, Option.map_map]
              exact present
            · exact guarded.modes other
          · simp only [Disk.succeed, Function.update_apply,
              guarded.elsewhere other absent]
            split
            · rename_i same
              subst same
              rw [guarded.elsewhere _ absent]
            · rfl

/-- Like calls are answered alike, and the machines still differ at most in the
secret files. -/
theorem Guarded.exec (guarded : Guarded secret machine machine')
    {call call' : FileCall} (alike : FileCall.Alike secret call call') :
    (call.exec umask machine).1 = (call'.exec umask machine').1 ∧
      Guarded secret (call.exec umask machine).2
        (call'.exec umask machine').2 := by
  unfold FileCall.exec
  rw [← guarded.faults]
  cases machine.faults.head?.join with
  | none => exact ⟨rfl, guarded.succeed alike _⟩
  | some fault => exact ⟨rfl, guarded.fail alike _ _⟩

end Guarded

/-! ## Runs on two disks -/

/-- The call does not change the mode of a directory that exists. -/
def FileCall.spares (dir : String) : FileCall → Prop
  | .setPermissions path _ => path ≠ dir
  | _ => True

theorem FileCall.exec_dir {umask : Umask} {dir : String} {call : FileCall}
    (spares : call.spares dir) {machine : Machine} {mode : Nat}
    (there : machine.disk.dir dir = some mode) :
    (call.exec umask machine).2.disk.dir dir = some mode := by
  unfold FileCall.exec
  cases machine.faults.head?.join with
  | some fault =>
      cases call with
      | write path contents =>
          obtain ⟨reason, written⟩ := fault
          cases written <;> exact there
      | _ => exact there
  | none =>
      cases call with
      | createDirAll made =>
          simp only [Disk.succeed, Function.update_apply]
          split
          · rename_i same
            subst same
            rw [there]
            rfl
          · exact there
      | setPermissions path mode' =>
          simp only [Disk.succeed, Function.update_apply]
          rw [if_neg (Ne.symm spares)]
          exact there
      | _ => exact there

/-- The machines differ at most in the secret files, whose directory is closed
if it was to be. -/
def Twins (a : Answers) (target : String) (closing : Prop)
    (machine machine' : Machine) : Prop :=
  Guarded (a.secretPaths target) machine machine' ∧
    (closing → machine.disk.dir (secretsDirFor target) = some 0o700)

section Runs

variable {umask : Umask} {a : Answers} {target : String} {closing : Prop}
  {View : Type} {shown : Machine → View}
  (shows : ∀ machine machine', Twins a target closing machine machine' →
    shown machine = shown machine')

include shows

theorem call_lockstep {call call' : FileCall}
    (alike : FileCall.Alike (a.secretPaths target) call call')
    (spares : call.spares (secretsDirFor target)) :
    Lockstep (FileCall.exec umask) shown (Twins a target closing)
      (FileCalls.call call).run (FileCalls.call call').run
      fun _ => Twins a target closing := by
  have after : ∀ machine machine', Twins a target closing machine machine' →
      Twins a target closing (call.exec umask machine).2
        (call'.exec umask machine').2 := fun machine machine' twins =>
    ⟨(twins.1.exec alike).2, fun closes =>
      FileCall.exec_dir spares (twins.2 closes)⟩
  exact lockstep_perform shows
    (fun machine machine' twins => (twins.1.exec alike).1)
    (fun machine machine' twins => shows _ _ (after machine machine' twins))
    after

theorem attempt_lockstep {call : FileCall}
    (spares : call.spares (secretsDirFor target)) :
    Lockstep (FileCall.exec umask) shown (Twins a target closing)
      (attempt call).run (attempt call).run
      fun _ => Twins a target closing :=
  Lockstep.bind (call_lockstep shows (.same call) spares) fun _ =>
    lockstep_done shows fun _ _ twins => twins

theorem writeSecretFile_lockstep {path : String}
    (secret : path ∈ a.secretPaths target) (contents contents' : String) :
    Lockstep (FileCall.exec umask) shown (Twins a target closing)
      (writeSecretFile path contents).run (writeSecretFile path contents').run
      fun _ => Twins a target closing := by
  have removes : (FileCall.removeFile path).spares (secretsDirFor target) :=
    True.intro
  have writes : ∀ bytes, (FileCall.write path bytes).spares
      (secretsDirFor target) := fun _ => True.intro
  have seals : (FileCall.setPermissions path 0o600).spares
      (secretsDirFor target) := (secretPaths_dirOf secret).2
  unfold writeSecretFile
  refine .bindExcept (attempt_lockstep shows removes)
    (fun _ => shows) (fun _ _ _ twins => twins) fun _ => ?_
  refine .bindExcept (call_lockstep shows (.secret secret _ _) (writes _))
    (fun _ => shows) (fun _ _ _ twins => twins) fun _ => ?_
  exact call_lockstep shows (.same _) seals

theorem createParent_lockstep (dir : Option String) :
    Lockstep (FileCall.exec umask) shown (Twins a target closing)
      (createParent dir).run (createParent dir).run
      fun _ => Twins a target closing := by
  have nothing : Lockstep (FileCall.exec umask) shown (Twins a target closing)
      (pure () : FileCalls Unit).run (pure () : FileCalls Unit).run
      fun _ => Twins a target closing :=
    lockstep_done shows fun _ _ twins => twins
  cases dir with
  | none => exact nothing
  | some dir =>
      have creates : (FileCall.createDirAll dir).spares
        (secretsDirFor target) := True.intro
      unfold createParent
      dsimp only
      split
      · exact nothing
      · exact call_lockstep shows (.same _) creates

theorem writeEnv_lockstep (answers : Answers) :
    Lockstep (FileCall.exec umask) shown (Twins a target closing)
      (writeEnv target answers).run (writeEnv target answers).run
      fun _ => Twins a target closing := by
  have writes : ∀ bytes, (FileCall.write target bytes).spares
      (secretsDirFor target) := fun _ => True.intro
  unfold writeEnv
  exact .bindExcept (createParent_lockstep shows _) (fun _ => shows)
    (fun _ _ _ twins => twins) fun _ => call_lockstep shows (.same _) (writes _)

/-- Where a part of the wizard stops: with the machines that differ at most in
the secret files, or with an error and the same shown. -/
def Stops {Value : Type} (shown : Machine → View) (a : Answers)
    (target : String) (closing : Prop) :
    Except IoError Value → Machine → Machine → Prop
  | .ok _, machine, machine' => Twins a target closing machine machine'
  | .error _, machine, machine' => shown machine = shown machine'

omit shows in
theorem createDirAll_there (dir : String) {machine machine' : Machine}
    (made : (FileCall.createDirAll dir).exec umask machine =
      (.ok (), machine')) : (machine'.disk.dir dir).isSome = true := by
  unfold FileCall.exec at made
  split at made
  · cases made
    simp only [Disk.succeed, Function.update_self]
    rfl
  · cases made

/-- The state of both machines before the secrets directory is closed. -/
def Opening (target : String) (closing : Prop) (machine machine' : Machine) :
    Prop :=
  machine = machine' ∧ (closing → machine.faults.head?.join = none ∧
    (machine.disk.dir (secretsDirFor target)).isSome = true)

omit shows in
theorem createDir_lockstep :
    Lockstep (FileCall.exec umask) shown
      (fun machine machine' => machine = machine' ∧
        (closing → machine.faults.tail.head?.join = none))
      (FileCalls.call (.createDirAll (secretsDirFor target))).run
      (FileCalls.call (.createDirAll (secretsDirFor target))).run
      fun result machine machine' => machine = machine' ∧
        (result = .ok () → Opening target closing machine machine') := by
  refine lockstep_perform (fun _ _ related => congrArg shown related.1)
    (fun _ _ related => by rw [related.1])
    (fun _ _ related => by rw [related.1]) ?_
  rintro machine _ ⟨rfl, fine⟩
  refine ⟨rfl, fun made => ⟨rfl, fun closes => ⟨?_, ?_⟩⟩⟩
  · have next := fine closes
    unfold FileCall.exec
    split <;> exact next
  · exact createDirAll_there _ (Prod.ext made rfl)

theorem closeDir_lockstep :
    Lockstep (FileCall.exec umask) shown (Opening target closing)
      (attempt (.setPermissions (secretsDirFor target) 0o700)).run
      (attempt (.setPermissions (secretsDirFor target) 0o700)).run
      fun _ => Twins a target closing := by
  have twins : ∀ machine machine', Opening target closing machine machine' →
      Twins a target closing
        (FileCall.exec umask (.setPermissions (secretsDirFor target) 0o700)
          machine).2
        (FileCall.exec umask (.setPermissions (secretsDirFor target) 0o700)
          machine').2 := by
    rintro machine _ ⟨rfl, fine⟩
    refine ⟨.refl _ _, fun closes => ?_⟩
    obtain ⟨next, there⟩ := fine closes
    obtain ⟨mode, isMode⟩ := Option.isSome_iff_exists.mp there
    unfold FileCall.exec
    rw [next]
    simp only [Disk.succeed, Function.update_self, isMode, Option.map_some]
  have closes : Lockstep (FileCall.exec umask) shown (Opening target closing)
      (perform (.setPermissions (secretsDirFor target) 0o700))
      (perform (.setPermissions (secretsDirFor target) 0o700))
      fun _ => Twins a target closing :=
    lockstep_perform (fun _ _ related => congrArg shown related.1)
      (fun _ _ related => by rw [related.1])
      (fun _ _ related => shows _ _ (twins _ _ related)) twins
  exact closes.bind fun _ => lockstep_done shows fun _ _ twins => twins

/-- The secrets directory is made and closed before anything is secret. -/
theorem writeSecrets_lockstep {token secret : String}
    (same : secret.isEmpty = a.goblinpayWebhookSecret.isEmpty) :
    Lockstep (FileCall.exec umask) shown
      (fun machine machine' => machine = machine' ∧
        (closing → a.payMode ≠ "off" ∧
          machine.faults.tail.head?.join = none))
      (writeSecrets target a).run
      (writeSecrets target (a.withSecrets token secret)).run
      (Stops shown a target closing) := by
  unfold writeSecrets
  by_cases off : a.payMode = "off"
  · rw [if_pos off, if_pos (show (a.withSecrets token secret).payMode = "off"
      from off)]
    refine lockstep_done (fun _ _ related => congrArg shown related.1) ?_
    rintro machine _ ⟨rfl, paid⟩
    exact ⟨.refl _ _, fun closes => absurd off (paid closes).1⟩
  · rw [if_neg off, if_neg (show ¬(a.withSecrets token secret).payMode = "off"
      from off)]
    have isToken : tokenPath target ∈ a.secretPaths target := by
      unfold Answers.secretPaths Answers.secretFiles
      rw [if_neg off]
      split <;> simp
    refine .bindExcept (createDir_lockstep.mono
      (fun _ _ related => ⟨related.1, fun closes => (related.2 closes).2⟩)
      fun _ _ _ related => related)
      (fun _ _ _ related => congrArg shown related.1)
      (fun _ _ _ related => congrArg shown related.1) fun _ => ?_
    refine .bindExcept ((closeDir_lockstep shows).mono
      (fun _ _ related => related.2 rfl) fun _ _ _ twins => twins)
      (fun _ => shows) (fun _ => shows) fun _ => ?_
    refine .bindExcept (writeSecretFile_lockstep shows isToken _ _)
      (fun _ => shows) (fun _ => shows) fun _ => ?_
    change Lockstep _ _ _ (if a.goblinpayWebhookSecret.isEmpty = true then _
      else _ : FileCalls _).run (if secret.isEmpty = true then _
      else _ : FileCalls _).run _
    rw [same]
    by_cases none : a.goblinpayWebhookSecret.isEmpty = true
    · rw [if_pos none, if_pos none]
      exact lockstep_done shows fun _ _ twins => twins
    · rw [if_neg none, if_neg none]
      have isHook : hookPath target ∈ a.secretPaths target := by
        unfold Answers.secretPaths Answers.secretFiles
        rw [if_neg off, if_neg none]
        simp
      refine .bindExcept (writeSecretFile_lockstep shows isHook _ _)
        (fun _ => shows) (fun _ => shows) fun _ => ?_
      exact lockstep_done shows fun _ _ twins => twins

/-- Nothing behind the secrets depends on them. -/
theorem writeAnswers_lockstep {Out : Type} (w : Writer Out)
    (streams : Reader × Out) {token secret : String}
    (same : secret.isEmpty = a.goblinpayWebhookSecret.isEmpty) :
    Lockstep (FileCall.exec umask) shown
      (fun machine machine' => machine = machine' ∧
        (closing → a.payMode ≠ "off" ∧
          machine.faults.tail.head?.join = none))
      (writeAnswers w target a streams).run
      (writeAnswers w target (a.withSecrets token secret) streams).run
      (Stops shown a target closing) := by
  unfold writeAnswers
  refine .bindExcept (writeSecrets_lockstep shows same)
    (fun _ _ _ stops => stops) (fun _ _ _ stops => stops) fun paths => ?_
  refine .bindExcept (writeEnv_lockstep shows _) (fun _ => shows)
    (fun _ => shows) fun _ => ?_
  have reports : ∀ said : Except IoError (Unit × Reader × Out),
      Lockstep (FileCall.exec umask) shown (Twins a target closing)
        (do
          let (_, streams) ← liftExcept said
          return (target, streams) : FileCalls (String × Reader × Out)).run
        (do
          let (_, streams) ← liftExcept said
          return (target, streams) : FileCalls (String × Reader × Out)).run
        (Stops shown a target closing) := by
    intro said
    cases said with
    | error reason => exact lockstep_done shows shows
    | ok value => exact lockstep_done shows fun _ _ twins => twins
  exact reports _

end Runs

/-! ## What is written -/

/-- The call does not touch the file. -/
def FileCall.leaves (path : String) : FileCall → Prop
  | .createDirAll _ => True
  | .setPermissions other _ => other ≠ path
  | .removeFile other => other ≠ path
  | .write other _ => other ≠ path

theorem FileCall.exec_file {umask : Umask} {path : String} {call : FileCall}
    (leaves : call.leaves path) (machine : Machine) :
    (call.exec umask machine).2.disk.file path = machine.disk.file path := by
  unfold FileCall.exec
  cases machine.faults.head?.join with
  | some fault =>
      cases call with
      | write other contents =>
          obtain ⟨reason, written⟩ := fault
          cases written with
          | none => rfl
          | some count => exact Function.update_of_ne (Ne.symm leaves) _ _
      | _ => rfl
  | none =>
      cases call with
      | createDirAll dir => rfl
      | _ => exact Function.update_of_ne (Ne.symm leaves) _ _

section Written

variable {umask : Umask} {before after : Machine → Prop}

theorem call_ends {call : FileCall}
    (step : ∀ machine, before machine →
      (call.exec umask machine).1 = .ok () →
        after (call.exec umask machine).2) :
    Ends (FileCall.exec umask) before (FileCalls.call call) fun _ => after :=
  fun machine given _ ended => step machine given ended

theorem attempt_ends {call : FileCall}
    (step : ∀ machine, before machine → after (call.exec umask machine).2) :
    Ends (FileCall.exec umask) before (attempt call) fun _ => after :=
  fun machine given _ _ => step machine given

theorem call_keeps {path : String} {call : FileCall} (leaves : call.leaves path)
    {file : Option File} :
    Ends (FileCall.exec umask) (fun machine => machine.disk.file path = file)
      (FileCalls.call call) fun _ machine => machine.disk.file path = file :=
  call_ends fun machine there _ => (call.exec_file leaves machine).trans there

theorem attempt_keeps {path : String} {call : FileCall}
    (leaves : call.leaves path) {file : Option File} :
    Ends (FileCall.exec umask) (fun machine => machine.disk.file path = file)
      (attempt call) fun _ machine => machine.disk.file path = file :=
  attempt_ends fun machine there => (call.exec_file leaves machine).trans there

theorem writeSecretFile_ends (path contents : String) :
    Ends (FileCall.exec umask) (fun _ => True) (writeSecretFile path contents)
      fun _ machine => machine.disk.file path =
        some ⟨encode (trim contents ++ "\n"), 0o600⟩ := by
  unfold writeSecretFile
  have writes : Ends (FileCall.exec umask) (fun _ => True)
      (FileCalls.call (.write path (encode (trim contents ++ "\n"))))
      fun _ machine => ∃ mode, machine.disk.file path =
        some ⟨encode (trim contents ++ "\n"), mode⟩ := by
    refine call_ends fun machine _ written => ?_
    unfold FileCall.exec at written ⊢
    split
    · exact ⟨_, Function.update_self ..⟩
    · rename_i failed
      rw [failed] at written
      cases written
  refine .later fun _ => .bind writes fun _ => call_ends ?_
  rintro machine ⟨mode, there⟩ sealed
  unfold FileCall.exec at sealed ⊢
  split
  · simp only [Disk.succeed, Function.update_self, there, Option.map_some]
  · rename_i failed
    rw [failed] at sealed
    cases sealed

theorem writeSecretFile_keeps {path other : String} (differ : path ≠ other)
    (contents : String) (file : Option File) :
    Ends (FileCall.exec umask) (fun machine => machine.disk.file other = file)
      (writeSecretFile path contents)
      fun _ machine => machine.disk.file other = file := by
  have removes : (FileCall.removeFile path).leaves other := differ
  have writes : ∀ bytes, (FileCall.write path bytes).leaves other :=
    fun _ => differ
  have seals : (FileCall.setPermissions path 0o600).leaves other := differ
  unfold writeSecretFile
  refine .bind (attempt_keeps removes) fun _ => ?_
  refine .bind (call_keeps (writes _)) fun _ => ?_
  exact call_keeps seals

/-- The secret files are written, for no one but their owner. -/
def Stored (a : Answers) (target : String) (machine : Machine) : Prop :=
  ∀ pair ∈ a.secretFiles target, machine.disk.file pair.1 =
    some ⟨encode (trim pair.2 ++ "\n"), 0o600⟩

theorem writeSecrets_ends (target : String) (a : Answers) :
    Ends (FileCall.exec umask) (fun _ => True) (writeSecrets target a)
      fun paths machine => { a with
        tokenFile := paths.1
        webhookSecretFile := paths.2 } = a.located target ∧
          Stored a target machine := by
  unfold writeSecrets Answers.located Stored Answers.secretFiles
  by_cases off : a.payMode = "off"
  · rw [if_pos off, if_pos off, if_pos off]
    exact ends_pure fun _ _ => ⟨rfl, by simp⟩
  · rw [if_neg off, if_neg off, if_neg off]
    refine .later fun _ => .later fun _ => ?_
    refine .bind (writeSecretFile_ends (tokenPath target) a.goblinpayToken)
      fun _ => ?_
    by_cases none : a.goblinpayWebhookSecret.isEmpty = true
    · rw [if_pos none, if_pos none, if_pos none]
      exact ends_pure fun _ stored => ⟨by dsimp only, by simpa using stored⟩
    · rw [if_neg none, if_neg none, if_neg none]
      refine .bind (((writeSecretFile_keeps (hookPath_ne target) _ _).and
        (writeSecretFile_ends (hookPath target) _)).mono
          (fun _ stored => ⟨stored, trivial⟩) fun _ _ stored => stored)
        fun _ => ?_
      exact ends_pure fun _ stored => ⟨by dsimp only, by simpa using stored⟩

theorem createParent_keeps (dir : Option String) (path : String)
    (file : Option File) :
    Ends (FileCall.exec umask) (fun machine => machine.disk.file path = file)
      (createParent dir) fun _ machine => machine.disk.file path = file := by
  cases dir with
  | none => exact ends_pure fun _ there => there
  | some dir =>
      have leaves : (FileCall.createDirAll dir).leaves path := True.intro
      unfold createParent
      dsimp only
      split
      · exact ends_pure fun _ there => there
      · exact call_keeps leaves

/-- The env file is written beside the secrets. -/
theorem writeEnv_ends (target : String) (a answers : Answers) :
    Ends (FileCall.exec umask) (Stored a target) (writeEnv target answers)
      fun _ machine => Stored a target machine ∧
        (machine.disk.file target).map File.contents =
          some (encode (renderEnv answers)) := by
  intro machine stored value ended
  constructor
  · intro pair member
    have differ : target ≠ pair.1 :=
      target_ne (List.mem_map_of_mem (f := Prod.fst) member)
    have writes : (FileCall.write target (encode (renderEnv answers))).leaves
      pair.1 := differ
    have keeps : Ends (FileCall.exec umask)
        (fun machine => machine.disk.file pair.1 =
          some ⟨encode (trim pair.2 ++ "\n"), 0o600⟩)
        (writeEnv target answers) fun _ machine =>
          machine.disk.file pair.1 =
            some ⟨encode (trim pair.2 ++ "\n"), 0o600⟩ :=
      .bind (createParent_keeps _ _ _) fun _ => call_keeps writes
    exact keeps machine (stored pair member) value ended
  · have wrote : Ends (FileCall.exec umask) (fun _ => True)
        (writeEnv target answers) fun _ machine =>
          (machine.disk.file target).map File.contents =
            some (encode (renderEnv answers)) := by
      refine .later fun _ => call_ends fun machine _ written => ?_
      unfold FileCall.exec at written ⊢
      split
      · simp [Disk.succeed, Disk.filled]
      · rename_i failed
        rw [failed] at written
        cases written
    exact wrote machine trivial value ended

theorem writeAnswers_ends {Out : Type} (w : Writer Out) (target : String)
    (a : Answers) (streams : Reader × Out) :
    Ends (FileCall.exec umask) (fun _ => True)
      (writeAnswers w target a streams)
      fun _ machine => Stored a target machine ∧
        (machine.disk.file target).map File.contents =
          some (encode (renderEnv (a.located target))) := by
  unfold writeAnswers
  refine .bind (writeSecrets_ends target a) fun paths => ?_
  dsimp only
  have reports : ∀ said : Except IoError (Unit × Reader × Out),
      Ends (FileCall.exec umask) (Stored a target)
        (do
          writeEnv target (a.located target)
          let (_, streams) ← liftExcept said
          return (target, streams) : FileCalls (String × Reader × Out))
        fun _ machine => Stored a target machine ∧
          (machine.disk.file target).map File.contents =
            some (encode (renderEnv (a.located target))) := by
    intro said
    refine .bind (writeEnv_ends target a _) fun _ => ?_
    cases said with
    | error reason =>
        rintro machine - value ⟨⟩
    | ok said => exact ends_pure fun _ written => written
  intro machine given
  rw [given.1]
  exact reports _ machine given.2

end Written

/-! ## Runs without faults -/

/-- Where no call fails, the program ends with a value. -/
def Succeeds {Value : Type} (umask : Umask) (program : FileCalls Value)
    (value : Value) : Prop :=
  Triple (FileCall.exec umask) (fun machine => machine.faults = [])
    program.run fun result machine =>
      machine.faults = [] ∧ result = .ok value

section Succeeds

variable {umask : Umask} {Value Next : Type}

theorem succeeds_pure (value : Value) :
    Succeeds umask (pure value : FileCalls Value) value :=
  fun _ none => ⟨none, rfl⟩

theorem Succeeds.bind {first : FileCalls Value} {value : Value}
    {rest : Value → FileCalls Next} {next : Next}
    (opening : Succeeds umask first value)
    (later : Succeeds umask (rest value) next) :
    Succeeds umask (first >>= rest) next := by
  refine Triple.bind opening fun result => ?_
  rintro machine ⟨none, rfl⟩
  exact later machine none

theorem succeeds_call (call : FileCall) :
    Succeeds umask (FileCalls.call call) () := by
  rintro machine none
  change (call.exec umask machine).2.faults = [] ∧
    (call.exec umask machine).1 = .ok ()
  unfold FileCall.exec
  rw [none]
  exact ⟨rfl, rfl⟩

theorem succeeds_attempt (call : FileCall) :
    Succeeds umask (attempt call) () := by
  rintro machine none
  exact ⟨(succeeds_call call machine none).1, rfl⟩

theorem succeeds_writeSecretFile (path contents : String) :
    Succeeds umask (writeSecretFile path contents) () :=
  .bind (succeeds_attempt _) (.bind (succeeds_call _) (succeeds_call _))

theorem succeeds_writeSecrets (target : String) (a : Answers) :
    ∃ paths, Succeeds umask (writeSecrets target a) paths := by
  unfold writeSecrets
  split
  · exact ⟨_, succeeds_pure _⟩
  · have opens : Succeeds umask
        (FileCalls.call (.createDirAll (secretsDirFor target))) () :=
      succeeds_call _
    have closes : Succeeds umask
        (attempt (.setPermissions (secretsDirFor target) 0o700)) () :=
      succeeds_attempt _
    have token : Succeeds umask
        (writeSecretFile (tokenPath target) a.goblinpayToken) () :=
      succeeds_writeSecretFile _ _
    split
    · exact ⟨_, .bind opens (.bind closes (.bind token (succeeds_pure _)))⟩
    · have hook : Succeeds umask
          (writeSecretFile (hookPath target) a.goblinpayWebhookSecret) () :=
        succeeds_writeSecretFile _ _
      exact ⟨_, .bind opens (.bind closes (.bind token
        (.bind hook (succeeds_pure _))))⟩

theorem succeeds_writeEnv (target : String) (a : Answers) :
    Succeeds umask (writeEnv target a) () := by
  have parent : ∀ dir, Succeeds umask (createParent dir) () := by
    intro dir
    cases dir with
    | none => exact succeeds_pure _
    | some dir =>
        unfold createParent
        dsimp only
        split
        · exact succeeds_pure _
        · exact succeeds_call _
  exact .bind (parent _) (succeeds_call _)

theorem succeeds_writeAnswers (target : String) (a : Answers)
    (streams : Reader × Unit) :
    Succeeds umask (writeAnswers Writer.sink target a streams)
      (target, streams) := by
  obtain ⟨paths, written⟩ : ∃ paths, Succeeds umask (writeSecrets target a)
    paths := succeeds_writeSecrets target a
  have said : ∀ answers, (report Writer.sink target answers).run streams =
      .ok ((), streams) := by
    intro answers
    unfold report
    split <;> rfl
  refine .bind written (.bind (succeeds_writeEnv _ _) ?_)
  rw [said]
  exact succeeds_pure _

end Succeeds

/-! ## Secrecy -/

/-- In a closed secrets directory, others see no difference. -/
theorem Twins.seen {a : Answers} {target : String} {machine machine' : Machine}
    (twins : Twins a target (a.payMode ≠ "off") machine machine') :
    machine.seen = machine'.seen := by
  obtain ⟨guarded, closed⟩ := twins
  refine Prod.ext (funext fun path => ?_) guarded.dir
  change machine.disk.seenFile path = machine'.disk.seenFile path
  unfold Disk.seenFile
  rw [← guarded.dir]
  by_cases secret : path ∈ a.secretPaths target
  · have paid : a.payMode ≠ "off" := by
      intro off
      unfold Answers.secretPaths Answers.secretFiles at secret
      rw [if_pos off] at secret
      cases secret
    have hidden : (machine.disk.dir (Path.dirOf path)).any closedDir = true := by
      rw [(secretPaths_dirOf secret).1, closed paid]
      rfl
    rw [if_pos hidden, if_pos hidden]
  · rw [guarded.elsewhere path secret]

/-- Once the secret files are closed, others see no difference. -/
theorem Guarded.seen {a : Answers} {target : String}
    {machine machine' : Machine}
    (guarded : Guarded (a.secretPaths target) machine machine')
    (stored : Stored a target machine) : machine.seen = machine'.seen := by
  refine Prod.ext (funext fun path => ?_) guarded.dir
  change machine.disk.seenFile path = machine'.disk.seenFile path
  unfold Disk.seenFile
  rw [← guarded.dir]
  by_cases secret : path ∈ a.secretPaths target
  · obtain ⟨pair, member, rfl⟩ := List.mem_map.mp secret
    have modes := guarded.modes pair.1
    rw [stored pair member, Option.map_some] at modes
    obtain ⟨file, there, mode⟩ := Option.map_eq_some_iff.mp modes.symm
    have closed : closedFile 0o600 = true := rfl
    rw [stored pair member, there, Option.map_some, Option.map_some, mode,
      closed]
    rfl
  · rw [guarded.elsewhere path secret]

/-- Nothing but the secret files depends on the secrets: whichever calls fail,
two wizards whose answers differ in the secrets alone end alike and write the
same to the terminal, and others see the same of what they leave on the disk.
If the secrets directory could be closed, others see the same at every moment. -/
theorem secrets_hidden {Out : Type} (w : Writer Out) (umask : Umask)
    (target : String) (streams : Reader × Out) (a : Answers)
    {token secret : String}
    (same : secret.isEmpty = a.goblinpayWebhookSecret.isEmpty)
    (start : Machine) :
    let exec := FileCall.exec umask
    let wizard := (writeAnswers w target a streams).run
    let wizard' := (writeAnswers w target (a.withSecrets token secret)
      streams).run
    (wizard.run exec start).1 = (wizard'.run exec start).1 ∧
    (∀ value, (wizard.run exec start).1 = .ok value →
      (wizard.run exec start).2.seen = (wizard'.run exec start).2.seen) ∧
    (start.faults.tail.head?.join = none →
      (wizard.visits exec start).map Machine.seen =
        (wizard'.visits exec start).map Machine.seen) := by
  intro exec wizard wizard'
  have opened : start = start ∧ (False → a.payMode ≠ "off" ∧
    start.faults.tail.head?.join = none) := ⟨rfl, nofun⟩
  have blind : Lockstep exec (fun _ => ()) _ wizard wizard'
      (Stops (fun _ => ()) a target False) :=
    writeAnswers_lockstep (fun _ _ _ => rfl) w streams same
  obtain ⟨-, alike, stops⟩ := blind start start opened
  refine ⟨alike, fun value ended => ?_, fun closes => ?_⟩
  · rw [ended] at stops
    exact stops.1.seen
      (writeAnswers_ends w target a streams start trivial value ended).1
  · have watched : Lockstep exec Machine.seen _ wizard wizard'
        (Stops Machine.seen a target (a.payMode ≠ "off")) :=
      writeAnswers_lockstep (fun _ _ twins => twins.seen) w streams same
    exact (watched start start ⟨rfl, fun paid => ⟨paid, closes⟩⟩).1

namespace Sample

/-- The answers for an authority that sells names. -/
def paidAnswers (token secret : String) : Answers where
  domain := "names.example"
  bindAddr := "127.0.0.1:8191"
  dataDir := "/var/lib/floonet-authority"
  payMode := "name"
  priceGrin := "2.5"
  goblinpayUrl := "http://127.0.0.1:8192"
  goblinpayToken := token
  goblinpayWebhookSecret := secret
  tokenFile := ""
  webhookSecretFile := ""
  transfers := false
  grinNodeUrl := ""

def umask : Umask := ⟨0o644, 0o755⟩

/-- An empty disk on which no call fails. -/
def blank : Machine := ⟨⟨fun _ => none, fun _ => none⟩, []⟩

/-- The token of the first wizard is hidden from those who see the disk. -/
theorem secrets_hidden_token :
    let exec := FileCall.exec umask
    let wizard := (writeAnswers Writer.sink ".env" (paidAnswers "s3cret" "")
      ([], ())).run
    let wizard' := (writeAnswers Writer.sink ".env"
      ((paidAnswers "s3cret" "").withSecrets "other" "") ([], ())).run
    (wizard.run exec blank).1 = (wizard'.run exec blank).1 ∧
    (∀ value, (wizard.run exec blank).1 = .ok value →
      (wizard.run exec blank).2.seen = (wizard'.run exec blank).2.seen) ∧
    (blank.faults.tail.head?.join = none →
      (wizard.visits exec blank).map Machine.seen =
        (wizard'.visits exec blank).map Machine.seen) :=
  secrets_hidden Writer.sink umask ".env" ([], ()) (paidAnswers "s3cret" "")
    rfl blank

end Sample

end Floonet
