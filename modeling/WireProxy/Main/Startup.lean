import WireProxy.Ipc.Request
import WireProxy.Main.LockNetwork

/-!
# The start of the program

`main` as the list of what it does, for every command line and every outcome of the calls that it
makes: it restricts itself in stages, reads the configuration, and serves it or starts a second
process that does so in the background.

* `lock` lists the restrictions of a stage. They are the arguments of calls into the system, each of
  which can fail and then ends the program; what a system makes of them is not described here.
* `main` and the functions that it is cut into follow the source from the top to the bottom.
* `daemon_serves`: what the process in the background serves is what the program would serve in the
  foreground, the first process serves nothing, and the second one starts no third.
-/

namespace WireProxy.Main

open Text Go Config Control Routine Ipc

variable {w : IntSize}

/-! ## Actions -/

/-- The stages of `lock`. -/
inductive Stage
  | boot
  | bootDaemon
  | readConfig
  | ready
  deriving DecidableEq

/-- A rule of `landlock.V1`; those for files are ignored if there is no such file. -/
inductive PathRule
  | roDirs (path : Text)
  | roFiles (path : Text)
  | rwFiles (path : Text)
  deriving DecidableEq

/-- A call by which the program gives up rights. The first two do nothing except on OpenBSD. -/
inductive Restriction
  | unveil (path flags : Text)
  | pledge (promises : Text)
  | restrictPaths (rules : List PathRule)
  | restrictNet (rules : List Rule)
  deriving DecidableEq

/-- What `main` does. -/
inductive Action (w : IntSize)
  | lock (stage : Stage)
  | restrict (restriction : Restriction)
  | print (text : Text)
  /-- `log.Fatal`. -/
  | fatal (err : Err)
  | panic (err : Err)
  /-- `os.Stat`. -/
  | stat (path : Text)
  /-- `ParseConfig`. -/
  | parseConfig (path : Text)
  /-- `os.Open(os.DevNull)`. -/
  | openDevNull
  /-- `cmd.Start`, with the arguments after the program's name, and its error. -/
  | exec (path : Text) (args : List Text) (err : Option Text)
  /-- `StartWireguard`, with the settings that it gives to the device and the log level. -/
  | startWireguard (setting : DeviceSetting w) (silent : Bool)
  | spawnRoutine (routine : RoutineSpawner w)
  | startPingIPs
  /-- `http.ListenAndServe`. -/
  | listenAndServe (addr : Text)
  /-- `<-ctx.Done()`. -/
  | wait

/-- The command line options. -/
structure Options where
  config : Text
  silent : Bool
  daemon : Bool
  info : Text
  printVersion : Bool
  configTest : Bool
  deriving DecidableEq

/-- What the program finds when it runs. -/
structure Machine (w : IntSize) where
  host : Host
  /-- `executablePath`. -/
  exePath : Text
  /-- `os.Getenv("HOME")`. -/
  home : Text
  /-- `os.Stat` succeeds. -/
  stat : Text → Bool
  /-- `parser.Parse`, which skips the name of the program; an error is the usage that is printed. -/
  parseArgs : List Text → Except Text Options
  /-- The error of a restriction. -/
  restrict : Restriction → Option Err
  /-- The error of `cmd.Start`. -/
  startCommand : Option Text
  /-- The error of `CreateNetTUN`, `IpcSet` or `Up`. -/
  startDevice : DeviceSetting w → Option Err

/-! ## Restrictions -/

/-- The rules of the stage `ready`. -/
def readyRules : List PathRule :=
  [.roFiles "/etc/resolv.conf", .roFiles "/dev/fd", .roFiles "/dev/zero", .roFiles "/dev/urandom",
    .roFiles "/etc/localtime", .roFiles "/proc/self/stat", .roFiles "/proc/self/status",
    .roFiles "/usr/share/locale", .roFiles "/proc/self/cmdline", .roFiles "/usr/share/zoneinfo",
    .roFiles "/proc/sys/kernel/version", .roFiles "/proc/sys/kernel/ngroups_max",
    .roFiles "/proc/sys/kernel/cap_last_cap", .roFiles "/proc/sys/vm/overcommit_memory",
    .rwFiles "/dev/log", .rwFiles "/dev/null", .rwFiles "/dev/full", .rwFiles "/proc/self/fd"]

/-- The calls of `lock`. -/
def lock (exePath : Text) : Stage → List Restriction
  | .boot => [.unveil "/" "r", .unveil exePath "x", .pledge "stdio rpath inet dns proc exec",
      .restrictPaths [.roDirs "/"]]
  | .bootDaemon => []
  | .readConfig => [.pledge "stdio rpath inet dns"]
  | .ready => [.pledge "stdio inet dns", .restrictPaths readyRules]

/-- Restrictions one after the other, and what comes after them. `panicIfError` ends the program at
the first one that fails. -/
def restricted (m : Machine w) : List Restriction → List (Action w) → List (Action w)
  | [], rest => rest
  | r :: rs, rest =>
    .restrict r ::
      match m.restrict r with
      | some err => [.fatal err]
      | none => restricted m rs rest

/-- `lock`, and what comes after it. -/
def enter (m : Machine w) (stage : Stage) (rest : List (Action w)) : List (Action w) :=
  .lock stage :: restricted m (lock m.exePath stage) rest

/-! ## The program -/

/-- `daemonProcess`. -/
def daemonProcess : Text := "daemon-process"

/-- `default_config_paths`. -/
def defaultConfigPaths (home : Text) : List Text :=
  ["/etc/wireproxy/wireproxy.conf", home ++ ("/.config/wireproxy.conf" : String).toList]

/-- `configFilePath`. -/
def configFilePath (stat : Text → Bool) : List Text → List (Action w) × Option Text
  | [] => ([], none)
  | path :: paths =>
    if stat path then ([.stat path], some path)
    else
      let (actions, found) := configFilePath stat paths
      (.stat path :: actions, found)

/-- `main` after the stage `ready`. -/
def served (m : Machine w) (conf : Configuration w) (o : Options) : List (Action w) :=
  match createIPCRequest conf.device with
  | .error err => [.fatal err]
  | .ok setting =>
    .startWireguard setting o.silent ::
      match m.startDevice setting with
      | some err => [.fatal err]
      | none => conf.routines.map .spawnRoutine ++ [.startPingIPs] ++
          (if o.info = [] then [] else [.listenAndServe o.info]) ++ [.wait]

/-- `main` with the network restricted. -/
def withNetwork (m : Machine w) (isDaemonProcess : Bool) (args : List Text) (o : Options)
    (conf : Configuration w) : List (Action w) :=
  if isDaemonProcess then .openDevNull :: .openDevNull :: enter m .ready (served m conf o)
  else if o.daemon then
    .exec m.exePath (daemonProcess :: args) m.startCommand ::
      (m.startCommand.map fun err => .print (err ++ ['\n'])).toList
  else enter m .ready (served m conf o)

/-- `main` with the configuration. The arguments are without the name of the program. -/
def withConfig (m : Machine w) (isDaemonProcess : Bool) (args : List Text) (o : Options)
    (conf : Configuration w) : List (Action w) :=
  if o.configTest then [.print "Config OK\n"]
  else
    match lockNetwork conf.routines o.info with
    | .error err => [.panic err]
    | .ok rules => restricted m [.restrictNet rules] (withNetwork m isDaemonProcess args o conf)

/-- `main` with the result of `ParseConfig`. -/
def withParsed (m : Machine w) (isDaemonProcess : Bool) (args : List Text) (o : Options) :
    Except Err (Configuration w) → List (Action w)
  | .error err => [.fatal err]
  | .ok conf => withConfig m isDaemonProcess args o conf

/-- `main` with the path of the configuration. -/
def withPath (m : Machine w) (isDaemonProcess : Bool) (args : List Text) (o : Options)
    (path : Text) : List (Action w) :=
  let rest := .parseConfig path ::
    withParsed m isDaemonProcess args o (Config.parseConfig m.host path)
  if o.daemon then rest else enter m .readConfig rest

/-- The path of the configuration: the option, or the first default path that exists. -/
def configPath (m : Machine w) (config : Text) : List (Action w) × Option Text :=
  if config = [] then configFilePath m.stat (defaultConfigPaths m.home) else ([], some config)

/-- `main` after the command line has been parsed. -/
def withOptions (m : Machine w) (isDaemonProcess : Bool) (args : List Text) (o : Options) :
    List (Action w) :=
  if o.printVersion then [.print "wireproxy, version 1.0.18-dev\n"]
  else
    match configPath m o.config with
    | (stats, none) => stats ++ [.print "configuration path is required\n"]
    | (stats, some path) => stats ++ withPath m isDaemonProcess args o path

/-- `main` with the arguments that are parsed. -/
def withArgs (m : Machine w) (isDaemonProcess : Bool) (args : List Text) : List (Action w) :=
  match m.parseArgs args with
  | .error usage => [.print usage]
  | .ok o => withOptions m isDaemonProcess args o

/-- `main`, with the arguments after the name of the program. -/
def main (m : Machine w) (osArgs : List Text) : List (Action w) :=
  enter m .boot
    (if osArgs.head? = some daemonProcess then
      enter m .bootDaemon (withArgs m true osArgs.tail)
    else withArgs m false osArgs)

section Restricted

variable {m : Machine w} {rs : List Restriction}

theorem restricted_of_forall (h : ∀ r ∈ rs, m.restrict r = none) (rest : List (Action w)) :
    restricted m rs rest = rs.map .restrict ++ rest := by
  induction rs with
  | nil => rfl
  | cons r rs ih =>
    rw [List.forall_mem_cons] at h
    simp only [restricted, h.1, ih h.2, List.map_cons, List.cons_append]

/-- What holds of the restrictions, of the end of the program and of what comes after. -/
theorem forall_mem_restricted {P : Action w → Prop} (hrestrict : ∀ r, P (.restrict r))
    (hfatal : ∀ err, P (.fatal err)) {rest : List (Action w)} (h : ∀ a ∈ rest, P a) :
    ∀ a ∈ restricted m rs rest, P a := by
  induction rs with
  | nil => exact h
  | cons r rs ih =>
    rw [restricted]
    refine List.forall_mem_cons.2 ⟨hrestrict r, ?_⟩
    split
    · exact List.forall_mem_singleton.2 (hfatal _)
    · exact ih

end Restricted

/-! ## The process in the background -/

/-- What serves the configuration. -/
def Action.serves : Action w → Bool
  | .startWireguard _ _ | .spawnRoutine _ | .startPingIPs | .listenAndServe _ => true
  | _ => false

/-- The start of a process. -/
def Action.command : Action w → Option (Text × List Text)
  | .exec path args none => some (path, args)
  | _ => none

/-- The last stage is entered. -/
def Action.isReady : Action w → Bool
  | .lock .ready => true
  | _ => false

/-- The same machine, on which `-d` has no effect. -/
def Machine.foreground (m : Machine w) : Machine w :=
  { m with parseArgs := fun args => (m.parseArgs args).map fun o => { o with daemon := false } }

/-- The action neither serves, nor starts a process, nor enters the last stage. -/
def Action.Quiet (a : Action w) : Prop :=
  a.serves = false ∧ a.command = none ∧ a.isReady = false

/-- What the two processes of a program in the background do, when the program in the foreground
does `alone`; `failed` is the error of starting the second one. -/
structure Daemonizes (command : Text × List Text) (failed : Option Text)
    (parent child alone : List (Action w)) : Prop where
  parent_serves : parent.filter Action.serves = []
  child_serves : child.filter Action.serves = alone.filter Action.serves
  parent_command : parent.filterMap Action.command =
    if alone.any Action.isReady ∧ failed = none then [command] else []
  child_command : child.filterMap Action.command = []

section Daemonizes

variable {command : Text × List Text} {failed : Option Text}
  {parent child alone : List (Action w)}

theorem filter_serves_of_quiet {actions : List (Action w)} (h : ∀ a ∈ actions, a.Quiet) :
    actions.filter Action.serves = [] :=
  List.filter_eq_nil_iff.2 fun a ha => by simp [(h a ha).1]

theorem filterMap_command_of_quiet {actions : List (Action w)} (h : ∀ a ∈ actions, a.Quiet) :
    actions.filterMap Action.command = [] :=
  List.filterMap_eq_nil_iff.2 fun a ha => (h a ha).2.1

theorem any_isReady_of_quiet {actions : List (Action w)} (h : ∀ a ∈ actions, a.Quiet) :
    actions.any Action.isReady = false :=
  List.any_eq_false.2 fun a ha => by simp [(h a ha).2.2]

theorem Daemonizes.nil : Daemonizes command failed ([] : List (Action w)) [] [] :=
  ⟨rfl, rfl, by simp, rfl⟩

/-- Quiet actions in front make no difference. -/
theorem Daemonizes.append (h : Daemonizes command failed parent child alone)
    {p c a : List (Action w)} (hparent : ∀ x ∈ p, x.Quiet) (hchild : ∀ x ∈ c, x.Quiet)
    (halone : ∀ x ∈ a, x.Quiet) :
    Daemonizes command failed (p ++ parent) (c ++ child) (a ++ alone) := by
  refine ⟨?_, ?_, ?_, ?_⟩
  · rw [List.filter_append, filter_serves_of_quiet hparent, h.parent_serves, List.append_nil]
  · rw [List.filter_append, List.filter_append, filter_serves_of_quiet hchild,
      filter_serves_of_quiet halone, h.child_serves]
  · rw [List.filterMap_append, filterMap_command_of_quiet hparent, List.nil_append,
      h.parent_command, List.any_append, any_isReady_of_quiet halone, Bool.false_or]
  · rw [List.filterMap_append, filterMap_command_of_quiet hchild, h.child_command, List.append_nil]

/-- The same quiet actions and nothing else. -/
theorem Daemonizes.of_quiet {actions : List (Action w)} (h : ∀ a ∈ actions, a.Quiet) :
    Daemonizes command failed actions actions actions := by
  simpa using Daemonizes.nil.append h h h

/-- The same restrictions make no difference, whether they fail or not. -/
theorem Daemonizes.restricted (h : Daemonizes command failed parent child alone) (m : Machine w)
    (rs : List Restriction) :
    Daemonizes command failed (restricted m rs parent) (restricted m rs child)
      (restricted m rs alone) := by
  induction rs with
  | nil => exact h
  | cons r rs ih =>
    have hquiet : ∀ a ∈ [(.restrict r : Action w)], a.Quiet :=
      List.forall_mem_singleton.2 ⟨rfl, rfl, rfl⟩
    simp only [Main.restricted]
    refine Daemonizes.append ?_ hquiet hquiet hquiet
    cases m.restrict r with
    | some err => exact .of_quiet (List.forall_mem_singleton.2 ⟨rfl, rfl, rfl⟩)
    | none => exact ih

/-- Nor does a stage before the last one. -/
theorem Daemonizes.enter (h : Daemonizes command failed parent child alone) (m : Machine w)
    {stage : Stage} (hstage : stage ≠ .ready) :
    Daemonizes command failed (enter m stage parent) (enter m stage child)
      (enter m stage alone) := by
  have hready : (.lock stage : Action w).isReady = false := by
    cases stage <;> first | rfl | exact absurd rfl hstage
  have hquiet : ∀ a ∈ [(.lock stage : Action w)], a.Quiet :=
    List.forall_mem_singleton.2 ⟨rfl, rfl, hready⟩
  exact (h.restricted m (lock m.exePath stage)).append hquiet hquiet hquiet

end Daemonizes

theorem quiet_print (text : Text) : ∀ a ∈ [(.print text : Action w)], a.Quiet :=
  List.forall_mem_singleton.2 ⟨rfl, rfl, rfl⟩

theorem stat_configFilePath (stat : Text → Bool) (paths : List Text) :
    ∀ a ∈ (configFilePath stat paths : List (Action w) × Option Text).1,
      ∃ path, a = .stat path := by
  induction paths with
  | nil => simp [configFilePath]
  | cons path paths ih =>
    rw [configFilePath]
    split
    · simp
    · exact List.forall_mem_cons.2 ⟨⟨path, rfl⟩, ih⟩

theorem stat_configPath (m : Machine w) (config : Text) :
    ∀ a ∈ (configPath m config).1, ∃ path, a = .stat path := by
  rw [configPath]
  split
  · exact stat_configFilePath _ _
  · simp

theorem quiet_configPath (m : Machine w) (config : Text) :
    ∀ a ∈ (configPath m config).1, a.Quiet := by
  intro a ha
  obtain ⟨path, rfl⟩ := stat_configPath m config a ha
  exact ⟨rfl, rfl, rfl⟩

/-- What `main` does after the last stage. -/
def Action.late : Action w → Bool
  | .fatal _ | .startWireguard _ _ | .spawnRoutine _ => true
  | .startPingIPs | .listenAndServe _ | .wait => true
  | _ => false

theorem late_served (m : Machine w) (conf : Configuration w) (o : Options) :
    ∀ a ∈ served m conf o, a.late = true := by
  intro a ha
  rw [served] at ha
  split at ha
  · rw [List.mem_singleton.1 ha]
    rfl
  · split at ha
    · simp only [List.mem_cons, List.not_mem_nil, or_false] at ha
      rcases ha with rfl | rfl <;> rfl
    · simp only [List.mem_cons, List.mem_append, List.mem_map, List.not_mem_nil, or_false] at ha
      rcases ha with rfl | ((⟨r, -, rfl⟩ | rfl) | ha) | rfl
      · rfl
      · rfl
      · rfl
      · split at ha
        · cases ha
        · rw [List.mem_singleton.1 ha]
          rfl
      · rfl

/-- The last stage and what comes after it start no process. -/
theorem filterMap_command_ready (m : Machine w) (conf : Configuration w) (o : Options) :
    (enter m .ready (served m conf o)).filterMap Action.command = [] := by
  refine List.filterMap_eq_nil_iff.2 (List.forall_mem_cons.2 ⟨rfl, ?_⟩)
  refine forall_mem_restricted (fun _ => rfl) (fun _ => rfl) fun a ha => ?_
  have hlate := late_served m conf o a ha
  cases a <;> first | rfl | cases hlate

section Chain

variable (m : Machine w) (args : List Text) {o : Options}

/-- A process with the command line option. -/
abbrev Machine.command (m : Machine w) (args : List Text) : Text × List Text :=
  (m.exePath, daemonProcess :: args)

/-- The first process stops where the second one and the one in the foreground go on. -/
theorem daemonizes_withNetwork (hdaemon : o.daemon = true) (conf : Configuration w) :
    Daemonizes (m.command args) m.startCommand (withNetwork m false args o conf)
      (withNetwork m true args o conf)
      (withNetwork m.foreground false args { o with daemon := false } conf) := by
  have hready : Daemonizes (m.command args) m.startCommand
      (.exec m.exePath (daemonProcess :: args) m.startCommand ::
        (m.startCommand.map fun err => .print (err ++ ['\n'])).toList)
      (enter m .ready (served m conf o)) (enter m .ready (served m conf o)) := by
    refine ⟨?_, rfl, ?_, filterMap_command_ready m conf o⟩
    · cases m.startCommand <;> rfl
    · cases m.startCommand <;> simp [Action.command, enter, Action.isReady]
  have hquiet : ∀ a ∈ [(.openDevNull : Action w), .openDevNull], a.Quiet := by
    simp [Action.Quiet, Action.serves, Action.command, Action.isReady]
  simp only [withNetwork, hdaemon, if_true, Bool.false_eq_true, if_false]
  exact hready.append (p := []) (a := []) (by simp) hquiet (by simp)

theorem daemonizes_withConfig (hdaemon : o.daemon = true) (conf : Configuration w) :
    Daemonizes (m.command args) m.startCommand (withConfig m false args o conf)
      (withConfig m true args o conf)
      (withConfig m.foreground false args { o with daemon := false } conf) := by
  simp only [withConfig]
  split
  · exact .of_quiet (quiet_print _)
  · split
    · exact .of_quiet (List.forall_mem_singleton.2 ⟨rfl, rfl, rfl⟩)
    · rename_i rules hrules
      exact (daemonizes_withNetwork m args hdaemon conf).restricted m [.restrictNet rules]

theorem daemonizes_withPath (hdaemon : o.daemon = true)
    (hread : ∀ r ∈ lock m.exePath .readConfig, m.restrict r = none) (path : Text) :
    Daemonizes (m.command args) m.startCommand (withPath m false args o path)
      (withPath m true args o path)
      (withPath m.foreground false args { o with daemon := false } path) := by
  have hparse : ∀ a ∈ [(.parseConfig path : Action w)], a.Quiet :=
    List.forall_mem_singleton.2 ⟨rfl, rfl, rfl⟩
  have hparsed : Daemonizes (m.command args) m.startCommand
      (withParsed m false args o (Config.parseConfig m.host path))
      (withParsed m true args o (Config.parseConfig m.host path))
      (withParsed m.foreground false args { o with daemon := false }
        (Config.parseConfig m.host path)) := by
    cases Config.parseConfig m.host path with
    | error err => exact .of_quiet (List.forall_mem_singleton.2 ⟨rfl, rfl, rfl⟩)
    | ok conf => exact daemonizes_withConfig m args hdaemon conf
  -- only the program in the foreground enters the stage
  have hstage : ∀ a ∈ (.lock .readConfig : Action w) ::
      (lock m.exePath .readConfig).map .restrict, a.Quiet :=
    List.forall_mem_cons.2 ⟨⟨rfl, rfl, rfl⟩, List.forall_mem_map.2 fun _ _ => ⟨rfl, rfl, rfl⟩⟩
  have hread' : ∀ r ∈ lock m.foreground.exePath .readConfig, m.foreground.restrict r = none := hread
  simp only [withPath, hdaemon, if_true, Bool.false_eq_true, if_false, enter,
    restricted_of_forall hread']
  exact (hparsed.append hparse hparse hparse).append (p := []) (c := []) (by simp)
    (by simp) hstage

theorem daemonizes_withOptions (hdaemon : o.daemon = true)
    (hread : ∀ r ∈ lock m.exePath .readConfig, m.restrict r = none) :
    Daemonizes (m.command args) m.startCommand (withOptions m false args o)
      (withOptions m true args o)
      (withOptions m.foreground false args { o with daemon := false }) := by
  have hstats := quiet_configPath m o.config
  have hpath : configPath m.foreground o.config = configPath m o.config := rfl
  simp only [withOptions, hpath]
  split
  · exact .of_quiet (quiet_print _)
  · rcases hconfig : configPath m o.config with ⟨stats, _ | path⟩
    all_goals
      have hquiet : ∀ a ∈ stats, a.Quiet := by
        rw [hconfig] at hstats
        exact hstats
    · exact .append (.of_quiet (quiet_print _)) hquiet hquiet hquiet
    · exact .append (daemonizes_withPath m args hdaemon hread path) hquiet hquiet hquiet

end Chain

/-- **A program in the background serves what it would serve in the foreground**, and only once. If
the command line asks for the background, and the stage that only the program in the foreground
enters does not fail:

* the first process serves nothing, and the second one, with the arguments that it is given, serves
  the same as the program in the foreground;
* the first process starts the second one, with its own arguments after the mark, iff the program in
  the foreground comes to the last stage and `cmd.Start` does not fail, and it starts nothing else;
* the second process starts none. -/
theorem daemon_serves (m : Machine w) {args : List Text} {o : Options}
    (hargs : args.head? ≠ some daemonProcess) (hparse : m.parseArgs args = .ok o)
    (hdaemon : o.daemon = true)
    (hread : ∀ r ∈ lock m.exePath .readConfig, m.restrict r = none) :
    (main m args).filter Action.serves = [] ∧
    (main m (daemonProcess :: args)).filter Action.serves =
      (main m.foreground args).filter Action.serves ∧
    (main m args).filterMap Action.command =
      (if (main m.foreground args).any Action.isReady ∧ m.startCommand = none then
        [(m.exePath, daemonProcess :: args)] else []) ∧
    (main m (daemonProcess :: args)).filterMap Action.command = [] := by
  have hoptions := daemonizes_withOptions m args hdaemon hread
  have hbootDaemon : ∀ a ∈ [(.lock .bootDaemon : Action w)], a.Quiet :=
    List.forall_mem_singleton.2 ⟨rfl, rfl, rfl⟩
  have hall : Daemonizes (m.command args) m.startCommand (main m args)
      (main m (daemonProcess :: args)) (main m.foreground args) := by
    have hafter := (hoptions.append (p := []) (a := []) (by simp) hbootDaemon
      (by simp)).enter m (show Stage.boot ≠ .ready by simp)
    simp only [main, hargs, if_false, List.head?_cons, if_true, List.tail_cons, withArgs, hparse,
      Machine.foreground, Except.map]
    exact hafter
  exact ⟨hall.parent_serves, hall.child_serves, hall.parent_command, hall.child_command⟩

/-- A machine with a TCPClientTunnel and the option `-d`. -/
def backgroundMachine : Machine .bits64 where
  host := clientTunnelHost
  exePath := "/usr/bin/wireproxy"
  home := "/root"
  stat _ := true
  parseArgs _ := .ok ⟨[], false, true, [], false, false⟩
  restrict _ := none
  startCommand := none
  startDevice _ := none

theorem daemon_serves_backgroundMachine :
    ((main backgroundMachine [daemonProcess, "-d"]).filter Action.serves).length = 3 ∧
      (main backgroundMachine ["-d"]).filterMap Action.command =
        [(backgroundMachine.exePath, [daemonProcess, "-d"])] := by
  have hargs : (["-d"] : List Text).head? ≠ some daemonProcess := by decide
  obtain ⟨-, hchild, hparent, -⟩ :=
    daemon_serves backgroundMachine hargs rfl rfl fun _ _ => rfl
  have hthree : ((main backgroundMachine.foreground ["-d"]).filter Action.serves).length = 3 := by
    decide +kernel
  have hready : (main backgroundMachine.foreground ["-d"]).any Action.isReady = true := by
    decide +kernel
  exact ⟨by rw [hchild, hthree], by rw [hparent, if_pos ⟨hready, rfl⟩]⟩

end WireProxy.Main
