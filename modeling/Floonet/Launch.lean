import Floonet.PaidConfig

/-!
# Launches

What a launch of the program does before it serves: it loads the first env
file there is, asks at a terminal if nothing is configured, and starts with
what the environment then says.  A first run is remembered: the next launch
asks nothing and starts with the same configuration.
-/

namespace Floonet

open Concurrent Concurrent.Program MachineInt Streams Text Validation

/-! ## Env files -/

def defaultEnvFile : String := "/etc/floonet-authority.env"

/-- The path in `FLOONET_ENV_FILE`. -/
def envFileNamed (vars : Vars) : Option String :=
  (vars.lookup "FLOONET_ENV_FILE").filter fun path => !path.isEmpty

/-- Where an env file is looked for, in order. -/
def envFileCandidates (vars : Vars) : List String :=
  (envFileNamed vars).toList ++ [defaultEnvFile, ".env"]

/-- `load_env_file`; no result is a panic. -/
def loadEnvFile (disk : Disk) (path : String) (vars : Vars) :
    Option (Except String Vars) :=
  match disk.readToString path with
  | .error e => some (.error e)
  | .ok text =>
      (loadVars vars (parseEnvFile text)).map fun loaded => .ok loaded.2

/-- `load_first_existing`, with the variables that it leaves. -/
def loadFirstExisting (disk : Disk) (vars : Vars) :
    Option (Option String × Vars) :=
  match (envFileCandidates vars).find? fun path => (disk.file path).isSome with
  | none => some (none, vars)
  | some path =>
      -- A file that cannot be read does not stop the start-up.
      (loadEnvFile disk path vars).map fun
        | .ok loaded => (some path, loaded)
        | .error _ => (some path, vars)

/-- A configuration names a domain. -/
def configPresent (vars : Vars) : Bool :=
  (vars.lookup "FLOONET_DOMAIN").any fun v => !v.isEmpty

/-- The wizard runs where nothing is configured and somebody can answer. -/
def decideWizard (configPresent interactive : Bool) : Bool :=
  !configPresent && interactive

/-! ## The target of the wizard -/

/-- The probe of a process for a directory. -/
def probePath (dir : String) (processId : Nat) : String :=
  Path.join dir (".floonet-setup-probe-" ++ toString processId)

/-- Try to create a file in the directory. -/
def dirWritable (processId : Nat) (dir : String) :
    Program FileCall FileAnswer Bool := do
  match ← perform (.write (probePath dir processId) []) with
  | .ok () =>
      let _ ← perform (.removeFile (probePath dir processId))
      return true
  | .error _ => return false

/-- Where the wizard puts the env file. -/
def wizardTarget (processId : Nat) (vars : Vars) :
    Program FileCall FileAnswer String :=
  match envFileNamed vars with
  | some path => return path
  | none =>
      match Path.parent defaultEnvFile with
      | some dir => do
          if ← dirWritable processId dir then return defaultEnvFile
          else return ".env"
      | none => return ".env"

/-! ## The program -/

/-- The display of an error. -/
def displayError : IoError → String
  | .interrupted => "Interrupted system call (os error 4)"
  | .invalidUtf8 => "stream did not contain valid UTF-8"
  | .other description => description

/-- What a launch is given: the arguments, the environment and the terminal. -/
structure Launch (Out : Type) where
  args : List String
  vars : Vars
  processId : Nat
  interactive : Bool
  streams : Reader × Out

/-- How a launch ends, with what it says last, or the configuration that it
hands to the server; and the streams as it leaves them, unless the wizard has
failed in the middle. -/
inductive Launched (Out : Type) where
  | serving (cfg : LoadedConfig) (streams : Reader × Out)
  | exited (code : Nat) (said : String) (streams : Option (Reader × Out))
  | panicked

section Launch

variable {Out : Type} (w : Writer Out) (build : Build) (tables : CaseTables)
  (umask : Umask)

/-- `run_first_run_wizard`. -/
def runFirstRunWizard (launch : Launch Out) (vars : Vars) (machine : Machine) :
    Except IoError (String × Reader × Out) × Machine :=
  let (target, machine) :=
    (wizardTarget launch.processId vars).run (FileCall.exec umask) machine
  (runWizard tables w target launch.interactive launch.streams).run.run
    (FileCall.exec umask) machine

/-- The start of the server on the variables. -/
def startUp (disk : Disk) (vars : Vars) (streams : Reader × Out) :
    Launched Out :=
  match (Startup.fromEnv {
      build := build
      tables := tables
      var := fun key => vars.lookup key
      readToString := disk.readToString }).run with
  | none => .panicked
  | some (.error e) => .exited 1 s!"configuration error: {e}" (some streams)
  | some (.ok cfg) => .serving cfg streams

/-- The subcommand `setup` is asked for. -/
def Launch.isSetup (launch : Launch Out) : Bool :=
  launch.args[1]? == some "setup"

def Launch.reconfigures (launch : Launch Out) : Bool :=
  launch.args.contains "--reconfigure"

def alreadyConfigured : String :=
  "A configuration already exists (FLOONET_DOMAIN is set). Re-run with\n" ++
    "`setup --reconfigure` to overwrite it, or edit the env file by hand."

def notATerminal : String :=
  "setup is interactive but stdin/stdout is not a terminal.\n" ++
    "Run it in a real terminal, e.g.  sudo floonet-name-authority setup"

def setupComplete (path : String) : String :=
  s!"Setup complete. Configuration written to {path}.\n" ++
    "Start the service, e.g.  sudo systemctl start floonet-authority"

def wizardFailed (e : IoError) : String :=
  s!"setup wizard failed: {displayError e}"

/-- The wizard on demand. -/
def runSetupSubcommand (launch : Launch Out) (machine : Machine) :
    Launched Out × Machine :=
  match loadFirstExisting machine.disk launch.vars with
  | none => (.panicked, machine)
  | some (_, vars) =>
      if configPresent vars && !launch.reconfigures then
        (.exited 0 alreadyConfigured (some launch.streams), machine)
      else if !launch.interactive then
        (.exited 1 notATerminal (some launch.streams), machine)
      else match runFirstRunWizard w tables umask launch vars machine with
        | (.ok (path, streams), machine) =>
            (.exited 0 (setupComplete path) (some streams), machine)
        | (.error e, machine) => (.exited 1 (wizardFailed e) none, machine)

/-- `main` without a subcommand, up to the point where it serves. -/
def runServer (launch : Launch Out) (machine : Machine) :
    Launched Out × Machine :=
  match loadFirstExisting machine.disk launch.vars with
  | none => (.panicked, machine)
  | some (_, vars) =>
      if decideWizard (configPresent vars) launch.interactive then
        match runFirstRunWizard w tables umask launch vars machine with
        | (.error e, machine) => (.exited 1 (wizardFailed e) none, machine)
        | (.ok (path, streams), machine) =>
            match loadEnvFile machine.disk path vars with
            | none => (.panicked, machine)
            | some (.error e) => (.exited 1
                s!"could not load the file just written ({path}): {e}"
                (some streams), machine)
            | some (.ok vars) =>
                (startUp build tables machine.disk vars streams, machine)
      else (startUp build tables machine.disk vars launch.streams, machine)

/-- The program: its subcommand, or the server. -/
def main (launch : Launch Out) (machine : Machine) : Launched Out × Machine :=
  if launch.isSetup then runSetupSubcommand w tables umask launch machine
  else runServer w build tables umask launch machine

end Launch

/-! ## What the start-up reads -/

theorem Startup.fromEnv_accepts {startup : Startup} {cfg : LoadedConfig}
    (accepted : startup.fromEnv.run = some (.ok cfg)) :
    cfg.domain = startup.envString "FLOONET_DOMAIN" "floonet.example" ∧
      cfg.validate = .ok () := by
  unfold Startup.fromEnv at accepted
  simp only [run_bind_eq_ok] at accepted
  obtain ⟨reserved, -, mode, -, namePrice, -, writePrice, -, token, -, secret,
    -, checked, valid, same⟩ := accepted
  cases same
  exact ⟨rfl, run_liftExcept_eq_ok.mp valid⟩

theorem validate_domain {cfg : Config} (valid : cfg.validate = .ok ()) :
    cfg.domain.isEmpty = false := by
  simp only [Config.validate, bind_eq_ok, require_eq_ok] at valid
  obtain ⟨-, given, -⟩ := valid
  simpa using given

section Launch

variable {Out : Type} {w : Writer Out} {build : Build} {tables : CaseTables}
  {umask : Umask}

theorem startUp_serving {disk : Disk} {vars : Vars} {cfg : LoadedConfig}
    {streams left : Reader × Out} :
    startUp build tables disk vars streams = .serving cfg left ↔
      (Startup.fromEnv {
        build := build
        tables := tables
        var := fun key => vars.lookup key
        readToString := disk.readToString }).run = some (.ok cfg) ∧
      left = streams := by
  unfold startUp
  split
  · rename_i outcome
    simp [outcome]
  · rename_i outcome
    simp [outcome]
  · rename_i outcome
    simp [outcome, eq_comm]

theorem startUp_present {disk : Disk} {vars : Vars} {cfg : LoadedConfig}
    {streams left : Reader × Out}
    (known : (vars.lookup "FLOONET_DOMAIN").isSome = true)
    (serves : startUp build tables disk vars streams = .serving cfg left) :
    configPresent vars = true := by
  obtain ⟨accepted, -⟩ := startUp_serving.mp serves
  obtain ⟨isDomain, valid⟩ := Startup.fromEnv_accepts accepted
  have given := validate_domain valid
  obtain ⟨domain, found⟩ := Option.isSome_iff_exists.mp known
  rw [isDomain, Startup.envString] at given
  dsimp only at given
  rw [found, Option.getD_some] at given
  rw [configPresent, found, Option.any_some, given]
  rfl

section Configured

variable {launch : Launch Out} {machine : Machine} {known : Option String}
  {vars : Vars}
  (loaded : loadFirstExisting machine.disk launch.vars = some (known, vars))
  (present : configPresent vars = true)

include loaded present

/-- A launch with a configuration asks nothing and writes nothing. -/
theorem runServer_configured : runServer w build tables umask launch machine =
    (startUp build tables machine.disk vars launch.streams, machine) := by
  rw [runServer, loaded]
  dsimp only
  rw [present]
  rfl

theorem runSetupSubcommand_configured (keeps : launch.reconfigures = false) :
    runSetupSubcommand w tables umask launch machine =
      (.exited 0 alreadyConfigured (some launch.streams), machine) := by
  rw [runSetupSubcommand, loaded]
  dsimp only
  rw [present, keeps]
  rfl

end Configured

/-! ## The first run -/

/-- The domain is the first variable of the file that the wizard writes. -/
theorem parseEnvFile_domain {a : Answers} (one : OneLine a.domain) :
    (parseEnvFile (renderEnv a)).lookup "FLOONET_DOMAIN" =
      some (unquote a.domain) := by
  have named : isKey "FLOONET_DOMAIN" = true := isKey_of_chars rfl (by decide)
  obtain ⟨more, isEntries⟩ : ∃ more,
      a.entries = ("FLOONET_DOMAIN", a.domain) :: more := ⟨_, rfl⟩
  rw [parseEnvFile_heading, isEntries, assignments,
    parseEnvFile_assignment named one]
  exact List.lookup_cons_self

/-- The files that a wizard with this target does not touch. -/
structure Untouched (target other : String) : Prop where
  env : target ≠ other
  dir : secretsDirFor target ≠ other
  token : tokenPath target ≠ other
  hook : hookPath target ≠ other

theorem writeSecrets_keeps {target other : String}
    (apart : Untouched target other) (a : Answers) (file : Option File) :
    Ends (FileCall.exec umask) (fun machine => machine.disk.file other = file)
      (writeSecrets target a)
      fun _ machine => machine.disk.file other = file := by
  have makes : (FileCall.createDirAll (secretsDirFor target)).leaves other :=
    True.intro
  have closes : (FileCall.setPermissions (secretsDirFor target) 0o700).leaves
    other := apart.dir
  unfold writeSecrets
  split
  · exact ends_pure fun _ there => there
  refine .bind (call_keeps makes) fun _ => .bind (attempt_keeps closes)
    fun _ => ?_
  refine .bind (writeSecretFile_keeps apart.token _ _) fun _ => ?_
  split
  · exact ends_pure fun _ there => there
  refine .bind (writeSecretFile_keeps apart.hook _ _) fun _ => ?_
  exact ends_pure fun _ there => there

theorem writeAnswers_keeps {target other : String}
    (apart : Untouched target other) (a : Answers) (streams : Reader × Out)
    (file : Option File) :
    Ends (FileCall.exec umask) (fun machine => machine.disk.file other = file)
      (writeAnswers w target a streams)
      fun _ machine => machine.disk.file other = file := by
  have writes : ∀ contents, (FileCall.write target contents).leaves other :=
    fun _ => apart.env
  unfold writeAnswers writeEnv
  refine .bind (writeSecrets_keeps apart a file) fun paths => ?_
  refine .bind (.bind (createParent_keeps _ _ _) fun _ => call_keeps (writes _))
    fun _ => ?_
  dsimp only
  generalize (report w target _).run streams = said
  cases said with
  | error reason => rintro machine - value ⟨⟩
  | ok said => exact ends_pure fun _ there => there

theorem writeAnswers_returns {target : String} (a : Answers)
    (streams : Reader × Out) :
    Ends (FileCall.exec umask) (fun _ => True) (writeAnswers w target a streams)
      fun value _ => value.1 = target := by
  unfold writeAnswers
  refine .later fun paths => .later fun _ => ?_
  dsimp only
  generalize (report w target _).run streams = said
  cases said with
  | error reason => rintro machine - value ⟨⟩
  | ok said => exact ends_pure fun _ _ => rfl

/-- What a wizard that ends well leaves behind: its target is an env file of
some answers, and the files that it does not touch are as before. -/
theorem runWizard_ends {target : String} {hidden : Bool}
    {streams : Reader × Out} {start ended : Machine} {path : String}
    {later : Reader × Out}
    (ran : (runWizard tables w target hidden streams).run.run
      (FileCall.exec umask) start = (.ok (path, later), ended)) :
    path = target ∧
      (∃ a : Answers, OneLine a.domain ∧
        (ended.disk.file target).map File.contents =
          some (encode (renderEnv a))) ∧
      ∀ other, Untouched target other →
        ended.disk.file other = start.disk.file other := by
  unfold runWizard at ran
  cases answered : (collectAnswers tables w hidden).run streams with
  | error reason =>
      rw [answered] at ran
      cases ran
  | ok result =>
      obtain ⟨a, streams'⟩ := result
      rw [answered] at ran
      have collected := collectAnswers_returns tables w hidden _ _ _ answered
      have files : Ends (FileCall.exec umask) (fun _ => True)
          (writeAnswers w target a streams') _ :=
        writeAnswers_ends w target a streams'
      obtain ⟨-, written⟩ :=
        files start trivial (path, later) (congrArg Prod.fst ran)
      obtain rfl : _ = ended := congrArg Prod.snd ran
      refine ⟨?_, ⟨a.located target, ?_, written⟩, fun other apart => ?_⟩
      · exact writeAnswers_returns (w := w) a streams' start trivial
          (path, later) (congrArg Prod.fst ran)
      · rw [located_domain]
        exact collected.domain.toOneLine
      · exact writeAnswers_keeps (w := w) apart a streams' _ start rfl
          (path, later) (congrArg Prod.fst ran)

theorem untouched_default : Untouched ".env" defaultEnvFile := by
  constructor
  · decide +kernel
  · decide +kernel
  · decide +kernel
  · decide +kernel

theorem parent_default : Path.parent defaultEnvFile = some "/etc" := by
  decide +kernel

theorem probePath_ne (processId : Nat) :
    probePath "/etc" processId ≠ defaultEnvFile := by
  intro same
  have etc : "/etc".toList = ['/', 'e', 't', 'c'] := toList_eq rfl
  have chars := congrArg String.toList same
  rw [probePath, Path.join_toList (c := 'c') (by rw [etc]; rfl) (by decide),
    String.toList_append, etc, toList_eq (rfl : ".floonet-setup-probe-" =
      String.ofList _), toList_eq (rfl : defaultEnvFile = String.ofList _)]
    at chars
  cases chars

/-- The wizard's target is the first candidate that can exist. -/
theorem wizardTarget_first {processId : Nat} {vars : Vars} {machine : Machine}
    (fresh : ∀ path ∈ envFileCandidates vars, machine.disk.file path = none) :
    let chosen :=
      (wizardTarget processId vars).run (FileCall.exec umask) machine
    ∃ before later, envFileCandidates vars = before ++ chosen.1 :: later ∧
      (before = [] ∨ before = [defaultEnvFile] ∧ chosen.1 = ".env") ∧
      ∀ path ∈ before, chosen.2.disk.file path = none := by
  intro chosen
  unfold envFileCandidates at fresh ⊢
  cases named : envFileNamed vars with
  | some path =>
      have isChosen : chosen = (path, machine) := by
        simp only [chosen, wizardTarget, named]
        rfl
      rw [isChosen]
      exact ⟨[], [defaultEnvFile, ".env"], rfl, .inl rfl,
        List.forall_mem_nil _⟩
  | none =>
      rw [named] at fresh
      have absent := fresh defaultEnvFile (by simp)
      have leaves : (FileCall.write (probePath "/etc" processId) []).leaves
        defaultEnvFile := probePath_ne processId
      have kept : ((FileCall.write (probePath "/etc" processId) []).exec umask
          machine).2.disk.file defaultEnvFile = none :=
        (FileCall.exec_file leaves machine).trans absent
      rcases called : (FileCall.write (probePath "/etc" processId) []).exec
        umask machine with ⟨answer, after⟩
      rw [called] at kept
      cases answer with
      | ok done =>
          have isChosen : chosen.1 = defaultEnvFile := by
            simp only [chosen, wizardTarget, named, parent_default, dirWritable,
              run_bind, run_perform, called]
            rfl
          rw [isChosen]
          exact ⟨[], [".env"], rfl, .inl rfl, List.forall_mem_nil _⟩
      | error reason =>
          have isChosen : chosen = (".env", after) := by
            simp only [chosen, wizardTarget, named, parent_default, dirWritable,
              run_bind, run_perform, called]
            rfl
          rw [isChosen]
          refine ⟨[defaultEnvFile], [], rfl, .inr ⟨rfl, rfl⟩, ?_⟩
          exact List.forall_mem_singleton.mpr kept

/-- What a first run leaves behind when no candidate was there. -/
theorem firstRun_ends {launch : Launch Out} {vars : Vars}
    {machine ended : Machine} {path : String} {left : Reader × Out}
    (fresh : ∀ path ∈ envFileCandidates vars, machine.disk.file path = none)
    (ran : runFirstRunWizard w tables umask launch vars machine =
      (.ok (path, left), ended)) :
    ∃ before later, envFileCandidates vars = before ++ path :: later ∧
      (∀ path ∈ before, ended.disk.file path = none) ∧
      ∃ a : Answers, OneLine a.domain ∧
        (ended.disk.file path).map File.contents =
          some (encode (renderEnv a)) := by
  obtain ⟨before, later, candidates, shape, absent⟩ :=
    @wizardTarget_first umask launch.processId vars machine fresh
  unfold runFirstRunWizard at ran
  rcases chosen : (wizardTarget launch.processId vars).run
    (FileCall.exec umask) machine with ⟨target, middle⟩
  rw [chosen] at ran candidates shape absent
  dsimp only at ran candidates shape absent
  obtain ⟨rfl, written, kept⟩ := runWizard_ends ran
  refine ⟨before, later, candidates, ?_, written⟩
  rcases shape with rfl | ⟨rfl, isLocal⟩
  · exact List.forall_mem_nil _
  · intro other member
    have isDefault := List.mem_singleton.mp member
    subst isDefault
    rw [kept _ (isLocal ▸ untouched_default)]
    exact absent _ member

/-- The way of a first run that serves. -/
theorem runServer_first {launch : Launch Out} {machine after : Machine}
    {cfg : LoadedConfig} {left : Reader × Out}
    (asked : launch.interactive = true)
    (unset : configPresent launch.vars = false)
    (fresh : ∀ path ∈ envFileCandidates launch.vars,
      machine.disk.file path = none)
    (serves : runServer w build tables umask launch machine =
      (.serving cfg left, after)) :
    ∃ path streams vars,
      runFirstRunWizard w tables umask launch launch.vars machine =
        (.ok (path, streams), after) ∧
      loadEnvFile after.disk path launch.vars = some (.ok vars) ∧
      startUp build tables after.disk vars streams = .serving cfg left := by
  have nothing : loadFirstExisting machine.disk launch.vars =
      some (none, launch.vars) := by
    have absent : (envFileCandidates launch.vars).find? (fun path =>
        (machine.disk.file path).isSome) = none := by
      refine List.find?_eq_none.mpr fun path member => ?_
      rw [fresh path member]
      decide
    rw [loadFirstExisting, absent]
  rw [runServer, nothing] at serves
  dsimp only at serves
  rw [unset, asked, if_pos (by decide)] at serves
  rcases ran : runFirstRunWizard w tables umask launch launch.vars machine with
    ⟨outcome, ended⟩
  rw [ran] at serves
  cases outcome with
  | error reason => cases serves
  | ok value =>
      obtain ⟨path, streams⟩ := value
      dsimp only at serves
      cases loaded : loadEnvFile ended.disk path launch.vars with
      | none =>
          rw [loaded] at serves
          cases serves
      | some outcome =>
          rw [loaded] at serves
          cases outcome with
          | error reason => cases serves
          | ok vars =>
              dsimp only at serves
              rw [Prod.mk.injEq] at serves
              obtain ⟨starts, rfl⟩ := serves
              exact ⟨path, streams, vars, rfl, loaded, starts⟩

/-- The file that is the first candidate there is gets loaded. -/
theorem loadFirstExisting_first {disk : Disk} {vars vars' : Vars}
    {before others : List String} {path : String}
    (candidates : envFileCandidates vars = before ++ path :: others)
    (absent : ∀ other ∈ before, disk.file other = none)
    (there : (disk.file path).isSome = true)
    (loaded : loadEnvFile disk path vars = some (.ok vars')) :
    loadFirstExisting disk vars = some (some path, vars') := by
  have nothing : before.find? (fun path => (disk.file path).isSome) =
      none := by
    refine List.find?_eq_none.mpr fun other member => ?_
    rw [absent other member]
    decide
  rw [loadFirstExisting, candidates, List.find?_append, nothing,
    Option.none_or]
  simp only [List.find?_cons, there, loaded, Option.map_some]

/-- A first run is remembered: a launch that has asked at the terminal, found
no env file before and serves now is followed by launches that ask nothing,
write nothing and serve with the same configuration, and by set-ups that leave
everything as it is unless they are to reconfigure. -/
theorem first_run_remembered {launch : Launch Out} {machine after : Machine}
    {cfg : LoadedConfig} {left : Reader × Out}
    (plain : launch.isSetup = false) (asked : launch.interactive = true)
    (unset : configPresent launch.vars = false)
    (fresh : ∀ path ∈ envFileCandidates launch.vars,
      machine.disk.file path = none)
    (serves : main w build tables umask launch machine =
      (.serving cfg left, after)) :
    ∀ (later : Launch Out) (rebooted : Machine),
      later.vars = launch.vars → rebooted.disk = after.disk →
        (later.isSetup = false →
          main w build tables umask later rebooted =
            (.serving cfg later.streams, rebooted)) ∧
        (later.isSetup = true → later.reconfigures = false →
          main w build tables umask later rebooted =
            (.exited 0 alreadyConfigured (some later.streams), rebooted)) := by
  intro later rebooted sameVars sameDisk
  rw [main, plain, if_neg Bool.false_ne_true] at serves
  obtain ⟨path, streams, vars, ran, loaded, starts⟩ :=
    runServer_first asked unset fresh serves
  obtain ⟨before, others, candidates, absent, a, one, written⟩ :=
    firstRun_ends fresh ran
  have there : (after.disk.file path).isSome = true := by
    rw [← Option.isSome_map, written]
    rfl
  -- The file that the wizard has written is the first one now.
  have found : loadFirstExisting rebooted.disk later.vars =
      some (some path, vars) := by
    rw [sameDisk, sameVars]
    exact loadFirstExisting_first candidates absent there loaded
  have present : configPresent vars = true := by
    refine startUp_present ?_ starts
    rw [loadEnvFile, readToString_encode written] at loaded
    dsimp only at loaded
    obtain ⟨⟨set, vars'⟩, isLoaded, same⟩ := Option.map_eq_some_iff.mp loaded
    cases same
    rw [loadVars_lookup isLoaded, parseEnvFile_domain one, Option.isSome_or]
    exact Bool.or_true _
  constructor
  · intro laterPlain
    have restarts : startUp build tables after.disk vars later.streams =
        .serving cfg later.streams :=
      startUp_serving.mpr ⟨(startUp_serving.mp starts).1, rfl⟩
    rw [main, laterPlain, if_neg Bool.false_ne_true,
      runServer_configured found present, sameDisk, restarts]
  · intro laterSetup keeps
    rw [main, laterSetup, if_pos rfl,
      runSetupSubcommand_configured found present keeps]

end Launch

namespace Sample

/-- Somebody starts the program by hand and answers nothing. -/
def byHand : Launch Unit where
  args := ["floonet-name-authority"]
  vars := []
  processId := 1
  interactive := true
  streams := ([], ())

theorem collectAnswers_default :
    (collectAnswers .ascii Writer.sink true).run ([], ()) =
      .ok (domainOnly "floonet.example", [], ()) :=
  collectAnswers_end (prompt_end _ _) true

theorem default_starts (readToString : String → Except String String) :
    ∃ cfg, (domainOnly "floonet.example").start .release .ascii readToString =
      some (.ok cfg) := by
  have collected := collectAnswers_returns _ _ _ _ _ _ collectAnswers_default
  have bare : isQuoted "floonet.example" = false := by
    rw [← unquote_eq_self_iff]
    exact unquote_of_head? (c := 'f') rfl (by decide)
  have loads := (loadVars_readBack_iff collected rfl).mpr
    ⟨noNul_of_chars rfl (by decide), noNul_of_chars rfl (by decide),
      noNul_of_chars rfl (by decide), by decide⟩
  have host : ∀ c ∈ "floonet.example".toList, c ≠ '/' ∧ c ≠ ':' := by
    rw [toList_eq (rfl : "floonet.example" = String.ofList _)]
    intro c member
    have plain := List.all_eq_true.mp (rfl : List.all _ (fun c =>
      c != '/' && c != ':') = true) c member
    rwa [Bool.and_eq_true, bne_iff_ne, bne_iff_ne] at plain
  have valid := (freeConfig_validate .release .ascii readToString collected rfl
    bare).mpr ⟨host, fun on => (Bool.false_ne_true on).elim⟩
  exact ⟨_, (start_eq_ok _ _ _ collected rfl).mpr ⟨loads, valid, rfl⟩⟩

theorem byHand_serves : ∃ cfg after,
    main Writer.sink .release .ascii umask byHand blank =
      (.serving cfg ([], ()), after) := by
  obtain ⟨probed, chosen, calm⟩ : ∃ probed : Machine,
      (wizardTarget 1 []).run (FileCall.exec umask) blank =
        (defaultEnvFile, probed) ∧ probed.faults = [] := by
    refine ⟨((wizardTarget 1 []).run (FileCall.exec umask) blank).2, ?_, ?_⟩
    · refine Prod.ext ?_ rfl
      simp only [wizardTarget, parent_default, dirWritable]
      rfl
    · simp only [wizardTarget, parent_default, dirWritable]
      rfl
  obtain ⟨ended, wrote, written⟩ : ∃ ended : Machine,
      (runWizard .ascii Writer.sink defaultEnvFile true ([], ())).run.run
          (FileCall.exec umask) probed =
        (.ok (defaultEnvFile, [], ()), ended) ∧
      (ended.disk.file defaultEnvFile).map File.contents =
        some (encode (renderEnv (domainOnly "floonet.example"))) := by
    unfold runWizard
    rw [collectAnswers_default]
    have wrote : Succeeds umask (writeAnswers Writer.sink defaultEnvFile
        (domainOnly "floonet.example") ([], ())) (defaultEnvFile, [], ()) :=
      succeeds_writeAnswers _ _ _
    have ends := (wrote probed calm).2
    exact ⟨_, Prod.ext ends rfl, (writeAnswers_ends Writer.sink defaultEnvFile
      (domainOnly "floonet.example") ([], ()) probed trivial _ ends).2⟩
  obtain ⟨cfg, started⟩ := default_starts ended.disk.readToString
  unfold Answers.start at started
  obtain ⟨⟨set, vars⟩, loaded, starts⟩ := Option.bind_eq_some_iff.mp started
  have ran : runFirstRunWizard Writer.sink .ascii umask byHand [] blank =
      (.ok (defaultEnvFile, [], ()), ended) := by
    unfold runFirstRunWizard byHand
    dsimp only
    rw [chosen]
    exact wrote
  have reads : loadEnvFile ended.disk defaultEnvFile [] = some (.ok vars) := by
    rw [loadEnvFile, readToString_encode written]
    dsimp only
    rw [loaded]
    rfl
  have serves : startUp .release .ascii ended.disk vars ([], ()) =
      .serving cfg ([], ()) := startUp_serving.mpr ⟨starts, rfl⟩
  refine ⟨cfg, ended, ?_⟩
  have nothing : loadFirstExisting blank.disk byHand.vars = some (none, []) :=
    rfl
  rw [main, if_neg (by decide), runServer, nothing]
  dsimp only
  rw [if_pos (by decide), ran]
  dsimp only
  rw [reads]
  dsimp only
  rw [serves]

/-- Whoever starts the program next finds it as it was. -/
theorem first_run_remembered_byHand : ∃ cfg after,
    main Writer.sink .release .ascii umask byHand blank =
        (.serving cfg ([], ()), after) ∧
      ∀ (later : Launch Unit) (rebooted : Machine),
        later.vars = [] → rebooted.disk = after.disk →
          (later.isSetup = false →
            main Writer.sink .release .ascii umask later rebooted =
              (.serving cfg later.streams, rebooted)) ∧
          (later.isSetup = true → later.reconfigures = false →
            main Writer.sink .release .ascii umask later rebooted =
              (.exited 0 alreadyConfigured (some later.streams),
                rebooted)) := by
  obtain ⟨cfg, after, serves⟩ := byHand_serves
  exact ⟨cfg, after, serves, first_run_remembered (by decide) rfl rfl
    (fun _ _ => rfl) serves⟩

end Sample

end Floonet
