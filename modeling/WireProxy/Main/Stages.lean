import WireProxy.Main.Startup

/-!
# The stages of `lock`

The program gives up rights in stages before it serves its configuration. That it does so on every
path through `main` is a statement about the order of its actions, and does not depend on what a
system makes of the restrictions.

* `Staged`: the stages are entered in their order, and a restriction that fails ends the program.
* `Leads`: what stands in front of a part of the program serves nothing, and its restrictions have
  not failed. A program that serves leads to `served` (`leads_main`).
* `restricted_before_serving` puts them together.
-/

namespace WireProxy.Main

open Text Go Config Control Routine Ipc

variable {w : IntSize}

/-- The stage that an action enters. -/
def Action.stage : Action w → Option Stage
  | .lock stage => some stage
  | _ => none

/-- The restriction that an action is. -/
def Action.restriction : Action w → Option Restriction
  | .restrict r => some r
  | _ => none

/-! ## The order of the stages -/

/-- A restriction that fails ends the program. -/
def FailsClosed (m : Machine w) (actions : List (Action w)) : Prop :=
  ∀ front r back err, actions = front ++ .restrict r :: back → m.restrict r = some err →
    back = [.fatal err]

/-- The actions enter these stages, or some of them, in this order. -/
structure Staged (m : Machine w) (stages : List Stage) (actions : List (Action w)) : Prop where
  sublist : (actions.filterMap Action.stage).Sublist stages
  failsClosed : FailsClosed m actions

/-- The action neither enters a stage nor is a restriction. -/
def Action.Plain (a : Action w) : Prop := a.stage = none ∧ a.restriction = none

section Staged

variable {m : Machine w} {stages : List Stage} {a : Action w} {actions rest : List (Action w)}

theorem failsClosed_nil : FailsClosed m [] := fun front _ _ _ heq _ => by cases front <;> cases heq

/-- The restriction that fails, and the end. -/
theorem failsClosed_pair {r : Restriction} {err : Err} (hr : m.restrict r = some err) :
    FailsClosed m [.restrict r, .fatal err] := by
  intro front r' back err' heq hfail
  rcases front with _ | ⟨a, _ | ⟨b, front⟩⟩
  · rw [List.nil_append, List.cons.injEq, Action.restrict.injEq] at heq
    obtain ⟨rfl, rfl⟩ := heq
    rw [Option.some.inj (hr.symm.trans hfail)]
  · simp at heq
  · simp at heq

theorem FailsClosed.cons (h : FailsClosed m rest)
    (ha : ∀ r, a = .restrict r → m.restrict r = none) : FailsClosed m (a :: rest) := by
  intro front r back err heq hfail
  cases front with
  | nil =>
    rw [List.nil_append, List.cons.injEq] at heq
    rw [ha r heq.1] at hfail
    cases hfail
  | cons x front =>
    rw [List.cons_append, List.cons.injEq] at heq
    exact h front r back err heq.2 hfail

theorem Staged.nil : Staged m stages [] := ⟨List.nil_sublist _, failsClosed_nil⟩

/-- A plain action in front makes no difference. -/
theorem Staged.cons (h : Staged m stages rest) (ha : a.Plain) : Staged m stages (a :: rest) := by
  refine ⟨?_, h.failsClosed.cons ?_⟩
  · rw [List.filterMap_cons_none ha.1]
    exact h.sublist
  · rintro r rfl
    cases ha.2

theorem Staged.append (h : Staged m stages rest) (hplain : ∀ a ∈ actions, a.Plain) :
    Staged m stages (actions ++ rest) := by
  induction actions with
  | nil => exact h
  | cons a actions ih =>
    rw [List.forall_mem_cons] at hplain
    exact (ih hplain.2).cons hplain.1

theorem Staged.of_plain (hplain : ∀ a ∈ actions, a.Plain) : Staged m stages actions :=
  List.append_nil actions ▸ Staged.nil.append hplain

theorem Staged.weaken (h : Staged m stages actions) (stage : Stage) :
    Staged m (stage :: stages) actions :=
  ⟨h.sublist.cons stage, h.failsClosed⟩

/-- Restrictions, whether they fail or not. -/
theorem Staged.restricted (h : Staged m stages rest) (rs : List Restriction) :
    Staged m stages (restricted m rs rest) := by
  induction rs with
  | nil => exact h
  | cons r rs ih =>
    rw [Main.restricted]
    cases hr : m.restrict r with
    | some err => exact ⟨List.nil_sublist _, failsClosed_pair hr⟩
    | none =>
      refine ⟨ih.sublist, ih.failsClosed.cons fun r' heq => ?_⟩
      cases heq
      exact hr

theorem Staged.enter (h : Staged m stages rest) (stage : Stage) :
    Staged m (stage :: stages) (enter m stage rest) := by
  have hrest := h.restricted (lock m.exePath stage)
  exact ⟨hrest.sublist.cons_cons stage, hrest.failsClosed.cons fun _ heq => by cases heq⟩

end Staged

section Chain

variable (m : Machine w) (isDaemonProcess : Bool) (args : List Text) (o : Options)

theorem staged_withNetwork (conf : Configuration w) :
    Staged m [.ready] (withNetwork m isDaemonProcess args o conf) := by
  have hserved : Staged m [] (served m conf o) := by
    refine .of_plain fun a ha => ?_
    have hlate := late_served m conf o a ha
    cases a <;> first | exact ⟨rfl, rfl⟩ | cases hlate
  rw [withNetwork]
  split
  · exact ((hserved.enter .ready).cons ⟨rfl, rfl⟩).cons ⟨rfl, rfl⟩
  · split
    · refine .of_plain (List.forall_mem_cons.2 ⟨⟨rfl, rfl⟩, ?_⟩)
      cases m.startCommand <;> simp [Action.Plain, Action.stage, Action.restriction]
    · exact hserved.enter .ready

theorem staged_withConfig (conf : Configuration w) :
    Staged m [.ready] (withConfig m isDaemonProcess args o conf) := by
  rw [withConfig]
  split
  · exact Staged.nil.cons ⟨rfl, rfl⟩
  · split
    · exact Staged.nil.cons ⟨rfl, rfl⟩
    · exact (staged_withNetwork m isDaemonProcess args o conf).restricted _

theorem staged_withPath (path : Text) :
    Staged m [.readConfig, .ready] (withPath m isDaemonProcess args o path) := by
  have hparsed : Staged m [.ready] (.parseConfig path ::
      withParsed m isDaemonProcess args o (Config.parseConfig m.host path)) := by
    refine Staged.cons ?_ ⟨rfl, rfl⟩
    cases Config.parseConfig m.host path with
    | error err => exact Staged.nil.cons ⟨rfl, rfl⟩
    | ok conf => exact staged_withConfig m isDaemonProcess args o conf
  rw [withPath]
  split
  · exact hparsed.weaken .readConfig
  · exact hparsed.enter .readConfig

theorem staged_withOptions :
    Staged m [.readConfig, .ready] (withOptions m isDaemonProcess args o) := by
  have hstats : ∀ a ∈ (configPath m o.config).1, a.Plain := by
    intro a ha
    obtain ⟨path, rfl⟩ := stat_configPath m o.config a ha
    exact ⟨rfl, rfl⟩
  rw [withOptions]
  split
  · exact Staged.nil.cons ⟨rfl, rfl⟩
  · split
    all_goals
      rename_i hconfig
      rw [hconfig] at hstats
    · exact (Staged.nil.cons ⟨rfl, rfl⟩).append hstats
    · exact (staged_withPath m isDaemonProcess args o _).append hstats

theorem staged_withArgs :
    Staged m [.readConfig, .ready] (withArgs m isDaemonProcess args) := by
  rw [withArgs]
  split
  · exact Staged.nil.cons ⟨rfl, rfl⟩
  · exact staged_withOptions m isDaemonProcess args _

/-- **The stages of every run.** -/
theorem staged_main : Staged m [.boot, .bootDaemon, .readConfig, .ready] (main m args) := by
  rw [main]
  refine Staged.enter ?_ .boot
  split
  · exact (staged_withArgs m true args.tail).enter .bootDaemon
  · exact (staged_withArgs m false args).weaken .bootDaemon

end Chain

/-! ## What stands in front -/

/-- The actions are some that serve nothing and whose restrictions, which do not fail, are `rs`, and
then `rest`. -/
def Leads (m : Machine w) (rs : List Restriction) (actions rest : List (Action w)) : Prop :=
  ∃ front, actions = front ++ rest ∧ (∀ a ∈ front, a.serves = false) ∧
    front.filterMap Action.restriction = rs ∧ ∀ r ∈ rs, m.restrict r = none

/-- Some action serves. -/
def Serves (actions : List (Action w)) : Prop := ∃ a ∈ actions, a.serves = true

section Leads

variable {m : Machine w} {rs : List Restriction} {a : Action w}
  {actions front rest : List (Action w)}

theorem Serves.of_cons (h : Serves (a :: rest)) (ha : a.serves = false) : Serves rest := by
  obtain ⟨x, hx, hserves⟩ := h
  rcases List.mem_cons.1 hx with rfl | hx
  · rw [ha] at hserves
    cases hserves
  · exact ⟨x, hx, hserves⟩

theorem Serves.of_append (h : Serves (front ++ rest)) (hfront : ∀ a ∈ front, a.serves = false) :
    Serves rest := by
  induction front with
  | nil => exact h
  | cons a front ih =>
    rw [List.forall_mem_cons] at hfront
    exact ih (h.of_cons hfront.1) hfront.2

theorem not_serves_nil : ¬ Serves ([] : List (Action w)) := by simp [Serves]

/-- Restrictions serve nothing, and if something is served after them then none of them failed. -/
theorem Serves.of_restricted {rs' : List Restriction} (h : Serves (restricted m rs' rest)) :
    (∀ r ∈ rs', m.restrict r = none) ∧ Serves rest := by
  induction rs' with
  | nil => exact ⟨by simp, h⟩
  | cons r rs' ih =>
    rw [restricted] at h
    have hrest := h.of_cons rfl
    split at hrest
    · exact absurd (hrest.of_cons rfl) not_serves_nil
    · rename_i hr
      obtain ⟨hrs, hserves⟩ := ih hrest
      exact ⟨List.forall_mem_cons.2 ⟨hr, hrs⟩, hserves⟩

theorem Serves.of_enter {stage : Stage} (h : Serves (enter m stage rest)) :
    (∀ r ∈ lock m.exePath stage, m.restrict r = none) ∧ Serves rest :=
  (h.of_cons rfl).of_restricted

theorem Leads.refl : Leads m [] rest rest := ⟨[], rfl, by simp, rfl, by simp⟩

theorem Leads.cons (h : Leads m rs actions rest) (ha : a.serves = false)
    (hrestriction : a.restriction = none) : Leads m rs (a :: actions) rest := by
  obtain ⟨front, rfl, hserves, hrs, hok⟩ := h
  refine ⟨a :: front, rfl, List.forall_mem_cons.2 ⟨ha, hserves⟩, ?_, hok⟩
  rw [List.filterMap_cons_none hrestriction, hrs]

theorem Leads.append (h : Leads m rs actions rest)
    (hfront : ∀ a ∈ front, a.serves = false ∧ a.restriction = none) :
    Leads m rs (front ++ actions) rest := by
  induction front with
  | nil => exact h
  | cons a front ih =>
    rw [List.forall_mem_cons] at hfront
    exact (ih hfront.2).cons hfront.1.1 hfront.1.2

/-- Restrictions that do not fail. -/
theorem Leads.restricted (h : Leads m rs actions rest) {rs' : List Restriction}
    (hrs' : ∀ r ∈ rs', m.restrict r = none) :
    Leads m (rs' ++ rs) (restricted m rs' actions) rest := by
  induction rs' with
  | nil => exact h
  | cons r rs' ih =>
    rw [List.forall_mem_cons] at hrs'
    obtain ⟨front, hfront, hserves, hrs, hok⟩ := ih hrs'.2
    refine ⟨.restrict r :: front, ?_, List.forall_mem_cons.2 ⟨rfl, hserves⟩, ?_,
      List.forall_mem_cons.2 ⟨hrs'.1, hok⟩⟩
    · simp only [Main.restricted, hrs'.1, hfront, List.cons_append]
    · have hsome : (Action.restrict r : Action w).restriction = some r := rfl
      rw [List.filterMap_cons_some hsome, hrs]
      rfl

theorem Leads.enter (h : Leads m rs actions rest) {stage : Stage}
    (hok : ∀ r ∈ lock m.exePath stage, m.restrict r = none) :
    Leads m (lock m.exePath stage ++ rs) (enter m stage actions) rest :=
  (h.restricted hok).cons rfl rfl

end Leads

section Chain

variable {m : Machine w} {isDaemonProcess : Bool} {args : List Text} {o : Options}

theorem leads_withNetwork {conf : Configuration w}
    (h : Serves (withNetwork m isDaemonProcess args o conf)) :
    Leads m (lock m.exePath .ready) (withNetwork m isDaemonProcess args o conf)
      (served m conf o) := by
  have hready : Serves (enter m .ready (served m conf o)) →
      Leads m (lock m.exePath .ready) (enter m .ready (served m conf o)) (served m conf o) :=
    fun h => List.append_nil (lock m.exePath .ready) ▸ Leads.refl.enter h.of_enter.1
  rw [withNetwork] at h ⊢
  split
  · rename_i hprocess
    rw [if_pos hprocess] at h
    exact ((hready ((h.of_cons rfl).of_cons rfl)).cons rfl rfl).cons rfl rfl
  · rename_i hprocess
    rw [if_neg hprocess] at h
    split
    · rename_i hdaemon
      -- the first of two processes serves nothing
      rw [if_pos hdaemon] at h
      have hprint := h.of_cons rfl
      cases hstart : m.startCommand with
      | none => exact absurd (hstart ▸ hprint) not_serves_nil
      | some err =>
        rw [hstart] at hprint
        exact absurd (hprint.of_cons rfl) not_serves_nil
    · rename_i hdaemon
      rw [if_neg hdaemon] at h
      exact hready h

theorem leads_withConfig {conf : Configuration w}
    (h : Serves (withConfig m isDaemonProcess args o conf)) :
    ∃ rules, lockNetwork conf.routines o.info = .ok rules ∧
      Leads m (.restrictNet rules :: lock m.exePath .ready)
        (withConfig m isDaemonProcess args o conf) (served m conf o) := by
  rw [withConfig] at h ⊢
  split
  · rename_i htest
    rw [if_pos htest] at h
    exact absurd (h.of_cons rfl) not_serves_nil
  · rename_i htest
    rw [if_neg htest] at h
    rcases hrules : lockNetwork conf.routines o.info with err | rules
    · simp only [hrules] at h
      exact absurd (h.of_cons rfl) not_serves_nil
    · simp only [hrules] at h ⊢
      obtain ⟨hnet, hserves⟩ := h.of_restricted
      exact ⟨rules, rfl, (leads_withNetwork hserves).restricted hnet⟩

/-- The restrictions after the first stage, in a program that serves. -/
def restrictions (exePath : Text) (o : Options) (rules : List Rule) : List Restriction :=
  (if o.daemon then [] else lock exePath .readConfig) ++
    .restrictNet rules :: lock exePath .ready

theorem leads_withPath {path : Text} (h : Serves (withPath m isDaemonProcess args o path)) :
    ∃ conf rules, Config.parseConfig m.host path = .ok conf ∧
      lockNetwork conf.routines o.info = .ok rules ∧
      Leads m (restrictions m.exePath o rules) (withPath m isDaemonProcess args o path)
        (served m conf o) := by
  have hparsed : Serves (.parseConfig path ::
      withParsed m isDaemonProcess args o (Config.parseConfig m.host path)) →
      ∃ conf rules, Config.parseConfig m.host path = .ok conf ∧
        lockNetwork conf.routines o.info = .ok rules ∧
        Leads m (.restrictNet rules :: lock m.exePath .ready) (.parseConfig path ::
          withParsed m isDaemonProcess args o (Config.parseConfig m.host path))
          (served m conf o) := by
    intro h
    have hrest := h.of_cons rfl
    cases hparse : Config.parseConfig m.host path with
    | error err =>
      rw [hparse] at hrest
      exact absurd (hrest.of_cons rfl) not_serves_nil
    | ok conf =>
      rw [hparse] at hrest
      obtain ⟨rules, hrules, hleads⟩ := leads_withConfig hrest
      exact ⟨conf, rules, rfl, hrules, hleads.cons rfl rfl⟩
  simp only [withPath, restrictions] at h ⊢
  split
  · rename_i hdaemon
    rw [if_pos hdaemon] at h
    exact hparsed h
  · rename_i hdaemon
    rw [if_neg hdaemon] at h
    obtain ⟨hread, hserves⟩ := h.of_enter
    obtain ⟨conf, rules, hparse, hrules, hleads⟩ := hparsed hserves
    exact ⟨conf, rules, hparse, hrules, hleads.enter hread⟩

theorem leads_withOptions (h : Serves (withOptions m isDaemonProcess args o)) :
    ∃ path conf rules, (configPath m o.config).2 = some path ∧
      Config.parseConfig m.host path = .ok conf ∧ lockNetwork conf.routines o.info = .ok rules ∧
      Leads m (restrictions m.exePath o rules) (withOptions m isDaemonProcess args o)
        (served m conf o) := by
  have hstats : ∀ a ∈ (configPath m o.config).1, a.serves = false ∧ a.restriction = none := by
    intro a ha
    obtain ⟨path, rfl⟩ := stat_configPath m o.config a ha
    exact ⟨rfl, rfl⟩
  rw [withOptions] at h ⊢
  split
  · rename_i hversion
    rw [if_pos hversion] at h
    exact absurd (h.of_cons rfl) not_serves_nil
  · rename_i hversion
    rw [if_neg hversion] at h
    rcases hconfig : configPath m o.config with ⟨stats, _ | path⟩
    all_goals
      simp only [hconfig] at h hstats ⊢
      have hserves := h.of_append fun a ha => (hstats a ha).1
    · exact absurd (hserves.of_cons rfl) not_serves_nil
    · obtain ⟨conf, rules, hparse, hrules, hleads⟩ := leads_withPath hserves
      exact ⟨path, conf, rules, rfl, hparse, hrules, hleads.append hstats⟩

theorem leads_withArgs (h : Serves (withArgs m isDaemonProcess args)) :
    ∃ o path conf rules, m.parseArgs args = .ok o ∧ (configPath m o.config).2 = some path ∧
      Config.parseConfig m.host path = .ok conf ∧ lockNetwork conf.routines o.info = .ok rules ∧
      Leads m (restrictions m.exePath o rules) (withArgs m isDaemonProcess args)
        (served m conf o) := by
  rw [withArgs] at h ⊢
  cases hparse : m.parseArgs args with
  | error usage =>
    rw [hparse] at h
    exact absurd (h.of_cons rfl) not_serves_nil
  | ok o =>
    rw [hparse] at h
    obtain ⟨path, conf, rules, hleads⟩ := leads_withOptions h
    exact ⟨o, path, conf, rules, rfl, hleads⟩

/-- **A program that serves** has read the configuration that it serves, and has been restricted. -/
theorem leads_main (h : Serves (main m args)) :
    ∃ o path conf rules,
      m.parseArgs (if args.head? = some daemonProcess then args.tail else args) = .ok o ∧
      (configPath m o.config).2 = some path ∧ Config.parseConfig m.host path = .ok conf ∧
      lockNetwork conf.routines o.info = .ok rules ∧
      Leads m (lock m.exePath .boot ++ restrictions m.exePath o rules) (main m args)
        (served m conf o) := by
  obtain ⟨hboot, hserves⟩ := Serves.of_enter h
  rw [main]
  split
  · rename_i hmark
    rw [if_pos hmark] at hserves
    obtain ⟨hbootDaemon, hserves⟩ := hserves.of_enter
    obtain ⟨o, path, conf, rules, hparse, hpath, hconf, hrules, hleads⟩ := leads_withArgs hserves
    exact ⟨o, path, conf, rules, hparse, hpath, hconf, hrules,
      (hleads.enter hbootDaemon).enter hboot⟩
  · rename_i hmark
    rw [if_neg hmark] at hserves
    obtain ⟨o, path, conf, rules, hparse, hpath, hconf, hrules, hleads⟩ := leads_withArgs hserves
    exact ⟨o, path, conf, rules, hparse, hpath, hconf, hrules, hleads.enter hboot⟩

end Chain

/-- **The program is restricted before it serves.** Whatever the command line, the configuration and
the outcome of every call:

* the stages are entered in their order, each at most once;
* a restriction that fails is followed by the end of the program and nothing else;
* if anything is served, then the configuration has been read, and everything in front of the part
  that serves it serves nothing. The restrictions there are those of the first stage, those for
  reading the configuration unless the command line has `-d`, the network rules of this
  configuration and those of the last stage, and none of them failed. After them `main` only starts
  what is served, waits, or ends with an error. -/
theorem restricted_before_serving (m : Machine w) (args : List Text) :
    ((main m args).filterMap Action.stage).Sublist [.boot, .bootDaemon, .readConfig, .ready] ∧
    (∀ front r back err, main m args = front ++ .restrict r :: back → m.restrict r = some err →
      back = [.fatal err]) ∧
    ((∃ a ∈ main m args, a.serves = true) → ∃ o path conf rules front,
      m.parseArgs (if args.head? = some daemonProcess then args.tail else args) = .ok o ∧
      (configPath m o.config).2 = some path ∧ Config.parseConfig m.host path = .ok conf ∧
      lockNetwork conf.routines o.info = .ok rules ∧ main m args = front ++ served m conf o ∧
      (∀ a ∈ front, a.serves = false) ∧
      front.filterMap Action.restriction = lock m.exePath .boot ++
        (if o.daemon then [] else lock m.exePath .readConfig) ++
        .restrictNet rules :: lock m.exePath .ready ∧
      (∀ r ∈ front.filterMap Action.restriction, m.restrict r = none) ∧
      ∀ a ∈ served m conf o, a.late = true) := by
  have hstaged := staged_main m args
  refine ⟨hstaged.sublist, hstaged.failsClosed, fun hserves => ?_⟩
  obtain ⟨o, path, conf, rules, hparse, hpath, hconf, hrules, front, hmain, hfront, hrs, hok⟩ :=
    leads_main hserves
  refine ⟨o, path, conf, rules, front, hparse, hpath, hconf, hrules, hmain, hfront, ?_, ?_,
    late_served m conf o⟩
  · rw [hrs, restrictions, List.append_assoc]
  · rw [hrs]
    exact hok

/-- The process in the background makes seven restrictions before it serves three things. -/
theorem restricted_before_serving_backgroundMachine :
    ∃ front rest, main backgroundMachine [daemonProcess, "-d"] = front ++ rest ∧
      (front.filterMap Action.restriction).length = 7 ∧
      (∀ a ∈ front, a.serves = false) ∧ (rest.filter Action.serves).length = 3 := by
  have hthree : ((main backgroundMachine [daemonProcess, "-d"]).filter
      Action.serves).length = 3 := by
    decide +kernel
  have hserves : ∃ a ∈ main backgroundMachine [daemonProcess, "-d"], a.serves = true := by
    obtain ⟨a, ha⟩ := List.exists_mem_of_length_pos (by rw [hthree]; decide)
    exact ⟨a, List.mem_filter.1 ha⟩
  obtain ⟨o, -, conf, rules, front, hparse, -, -, -, hmain, hfront, hrs, -⟩ :=
    (restricted_before_serving backgroundMachine [daemonProcess, "-d"]).2.2 hserves
  cases hparse
  refine ⟨front, _, hmain, by rw [hrs]; rfl, hfront, ?_⟩
  rw [hmain, List.filter_append, List.filter_eq_nil_iff.2 (by simpa using hfront),
    List.nil_append] at hthree
  exact hthree

end WireProxy.Main
