import DesktopEngine.System.MainProof

/-!
# The way back from a failure

A step that is not `smooth` puts `main` on a path that has no stage. `main_returns_smooth` says that
no run comes back from there: it ends before the end of `main`, or it misuses something, or it makes a
call that is undefined. `Lost` lists the ways in which `main` is not going to get to its end, and a
step from a lost state is lost again.
-/

namespace DesktopEngine.Main

open Run Lifetime Dbus

/-- A call that only `EXIT_AND_ERROR` and what comes before it lead to, or a failed socket. -/
def MainPc.onErrorPath : MainPc → Bool
  | .socketError | .setenvNull | .createError | .startReleaseName | .startUnref | .startFree
  | .startError => true
  | _ => false

/-- The display still has to be used before `wl_display_run` returns. -/
def MainPc.beforeRun : MainPc → Bool
  | .globalCreate | .globalFatal | .sigaction | .addSocket | .setenv | .dbusCreateServer
  | .initDbusModules | .serverSetDbus | .dbusStartMainLoop | .displayRun => true
  | _ => false

/-- `main` is not going to get to its end. -/
inductive Lost (s : MainState) : Prop where
  | misused (h : s.res.misused = true)
  | undefined (h : s.undefined = true)
  | failing (h : s.pc.onErrorPath = true)
  | noDisplay (hpc : s.pc.beforeRun = true) (h : s.res.life .display ≠ .alive)
  /-- `dbus_start_main_loop` is going to return -1. -/
  | starting (hpc : s.pc ≠ .loggerCleanup) (h : startFailed (s.bus.server.threads 0) = true)
      (hfresh : ∀ t, s.bus.server.nextTid ≤ t → s.bus.server.threads t = .idle)

/-- The last call of `main` has been made. -/
structure Returned (s : MainState) : Prop where
  ended : s.ended = true
  pc : s.pc = .loggerCleanup
  used : s.res.misused = false
  defined : s.undefined = false
  idle : s.bus.server.threads 0 = .idle

section Lost

variable {s s' : MainState} {g : Stage} {act : MainAct}

theorem Lost.not_returned (h : Lost s) : ¬ Returned s := by
  rintro ⟨-, hpc, hused, hdefined, -⟩
  cases h with
  | misused h => rw [hused] at h; cases h
  | undefined h => rw [hdefined] at h; cases h
  | failing h => rw [hpc] at h; cases h
  | noDisplay h => rw [hpc] at h; cases h
  | starting h => exact h hpc

/-- Once misused, always misused. -/
theorem misused_use {r : Resource} (h : s.res.misused = true) : (s.use r).res.misused = true := by
  change (_ || _) = true
  rw [h]
  rfl

/-- A use changes nothing but the mark for misuse, so a run that is lost stays lost. -/
theorem Lost.use (h : Lost s) (r : Resource) : Lost (s.use r) := by
  cases h with
  | misused h => exact .misused (misused_use h)
  | undefined h => exact .undefined h
  | failing h => exact .failing h
  | noDisplay hpc h => exact .noDisplay hpc h
  | starting hpc h hfresh => exact .starting hpc h hfresh

theorem Lost.useAll (h : Lost s) (rs : List Resource) : Lost (s.useAll rs) := by
  unfold MainState.useAll
  induction rs generalizing s with
  | nil => exact h
  | cons r rs ih => exact ih (h.use r)

theorem useAll_bus (rs : List Resource) : (s.useAll rs).bus = s.bus := by
  unfold MainState.useAll
  induction rs generalizing s with
  | nil => rfl
  | cons r rs ih => rw [List.foldl_cons, ih]; rfl

theorem useAll_pc (rs : List Resource) : (s.useAll rs).pc = s.pc := by
  unfold MainState.useAll
  induction rs generalizing s with
  | nil => rfl
  | cons r rs ih => rw [List.foldl_cons, ih]; rfl

theorem lost_use_display (h : s.res.life .display ≠ .alive) (pc : MainPc) :
    Lost ((s.use .display).goto pc) := .misused (Ledger.misused_use h)

theorem lost_exitAndError {pc : MainPc} (hpc : pc.beforeRun = true) :
    Lost (s.exitAndError.goto pc) := by
  refine .noDisplay hpc ?_
  change (s.res.destroy .display).life .display ≠ _
  rw [Ledger.destroy_life]
  exact Life.noConfusion

/-- `main` goes from one call of the error path to the next, and back before `wl_display_run`. -/
theorem lost_runMain_failing (hpc : s.pc.onErrorPath = true) (h : s.runMain act = some s') :
    Lost s' := by
  unfold MainState.runMain at h
  cases hc : s.pc with rw [hc] at h hpc
  | createError | startError =>
      obtain ⟨rfl, rfl⟩ := onGo_eq_some h
      exact lost_exitAndError rfl
  | socketError | startReleaseName | startUnref | startFree =>
      obtain ⟨rfl, rfl⟩ := onGo_eq_some h
      exact .failing rfl
  | setenvNull =>
      obtain ⟨rfl, rfl⟩ := onGo_eq_some h
      exact .undefined rfl
  | _ => cases hpc

/-- A call into the D-Bus server leaves the display as it is. -/
theorem lost_call (hpc : s.pc.beforeRun = true) (hd : s.res.life .display ≠ .alive)
    {call : ServerAct} (h : s.call call = some s') : Lost s' := by
  obtain ⟨bus, -, rfl⟩ := Option.map_eq_some_iff.mp h
  exact .noDisplay hpc hd

/-- `main` finds the display missing before it gets to `wl_display_run`, or there. -/
theorem lost_runMain_noDisplay (hpc : s.pc.beforeRun = true) (hd : s.res.life .display ≠ .alive)
    (h : s.runMain act = some s') : Lost s' := by
  unfold MainState.runMain at h
  cases hc : s.pc with rw [hc] at h hpc
  | globalCreate =>
      obtain ⟨ok, rfl, rfl⟩ := onResult_eq_some h
      exact lost_use_display hd _
  | addSocket =>
      obtain ⟨ok, rfl, rfl⟩ := onResult_eq_some h
      exact lost_use_display hd _
  | displayRun =>
      obtain ⟨rfl, rfl⟩ := onGo_eq_some h
      exact .misused (Ledger.misused_use hd)
  | globalFatal =>
      obtain ⟨returns, rfl, rfl⟩ := onFatal_eq_some h
      cases returns with
      | true => exact .noDisplay rfl hd
      | false => exact .noDisplay (by change s.pc.beforeRun = true; rw [hc]; rfl) hd
  | dbusCreateServer =>
      cases act with
      | created result =>
          obtain rfl := Option.some.inj h
          cases result with
          | created busName => exact .noDisplay rfl hd
          | _ => exact .failing rfl
      | _ => cases h
  | initDbusModules =>
      cases act with
      | module module =>
          have h : s.initDbusModules module = some s' := h
          unfold MainState.initDbusModules at h
          split_ifs at h
          · exact lost_call (s := s.goto .serverSetDbus) rfl hd h
          · obtain rfl := Option.some.inj h
            exact .noDisplay rfl hd
      | _ => cases h
  | dbusStartMainLoop =>
      cases act with
      | go =>
          have h : s.dbusStartMainLoop = some s' := h
          unfold MainState.dbusStartMainLoop at h
          dsimp only at h
          split_ifs at h
          · obtain rfl := Option.some.inj h
            exact .failing rfl
          · obtain rfl := Option.some.inj h
            exact .failing rfl
          · exact lost_call (s := (s.use .record).goto .displayRun) rfl hd h
      | _ => cases h
  | sigaction | serverSetDbus | setenv =>
      obtain ⟨rfl, rfl⟩ := onGo_eq_some h
      exact .noDisplay rfl hd
  | _ => cases hpc

/-- A start that has failed is undone step by step, and then -1 is returned. -/
theorem startFailed_undone {b b' : CleanupState} {t : Tid} {act : ServerAct}
    (hfresh : ∀ u, b.server.nextTid ≤ u → b.server.threads u = .idle)
    (hfailed : startFailed (b.server.threads 0) = true) (h : b.step (.server t act) = some b') :
    (startFailed (b'.server.threads 0) = true ∨ b.server.threads t = .start .unlockFailed) ∧
      ∀ u, b'.server.nextTid ≤ u → b'.server.threads u = .idle := by
  obtain ⟨hlt, owner, m, -, hm, hs⟩ := step_parts (bus_step_server h)
  have hframe := runThread_frame hfresh hlt hm
  rw [hs]
  refine ⟨?_, hframe.fresh⟩
  show startFailed (m.threads 0) = true ∨ _
  rcases eq_or_ne 0 t with rfl | ht
  · cases hthread : b.server.threads 0 with rw [hthread] at hfailed
    | start pc =>
        unfold ServerState.runThread at hm
        rw [hthread] at hm
        have hm : b.server.runStart 0 act pc = some m := hm
        unfold ServerState.runStart at hm
        cases pc with
        | unlockFailed => exact Or.inr rfl
        | lockFailed | clear =>
            dsimp only at hm
            split_ifs at hm
            obtain rfl := Option.some.inj hm
            exact Or.inl (by simp [ServerState.setThread, startFailed])
        | _ => cases hfailed
    | _ => cases hfailed
  · left
    rcases hframe.others 0 ht with hsame | ⟨hidle, -⟩
    · rw [hsame]
      exact hfailed
    · rw [hidle] at hfailed
      cases hfailed

/-- The threads of the D-Bus server leave the display alone, and move `main` only to the error path. -/
theorem Lost.runServer (hl : Lost s) {t : Tid} {act : ServerAct}
    (h : s.runServer t act = some s') : Lost s' := by
  unfold MainState.runServer at h
  obtain ⟨-, h⟩ := Option.ite_none_left_eq_some.mp h
  obtain ⟨bus, hbus, h⟩ := Option.bind_eq_some_iff.mp h
  obtain rfl := Option.some.inj h
  by_cases hfailed : s.bus.server.threads t = .start .unlockFailed
  · rw [if_pos hfailed]
    exact .failing rfl
  · rw [if_neg hfailed]
    cases hl.useAll (touched (s.bus.server.threads t) act) with
    | misused h => exact .misused h
    | undefined h => exact .undefined h
    | failing h => exact .failing h
    | noDisplay hpc h => exact .noDisplay hpc h
    | starting hpc h hfresh =>
        rw [useAll_bus] at h hfresh
        obtain ⟨hstays | hthread, hfresh'⟩ := startFailed_undone hfresh h hbus
        · exact .starting hpc hstays hfresh'
        · exact absurd hthread hfailed

theorem lost_step (s : MainState) (act : MainAct) (s' : MainState) (hl : Lost s)
    (h : s.step act = some s') : Lost s' := by
  unfold MainState.step at h
  obtain ⟨hgoes, h⟩ := Option.ite_none_left_eq_some.mp h
  have hmain : (if s.bus.server.threads 0 = .idle then s.runMain act else none) = some s' →
      Lost s' := by
    intro hrun
    obtain ⟨hidle, hrun⟩ := Option.ite_none_right_eq_some.mp hrun
    cases hl with
    | misused h => rw [h, Bool.or_true] at hgoes; exact absurd rfl hgoes
    | undefined h => rw [h, Bool.or_true, Bool.true_or] at hgoes; exact absurd rfl hgoes
    | failing hpc => exact lost_runMain_failing hpc hrun
    | noDisplay hpc hd => exact lost_runMain_noDisplay hpc hd hrun
    | starting hpc h => rw [hidle] at h; cases h
  cases act with
  | signal =>
      obtain ⟨-, h⟩ := Option.ite_none_right_eq_some.mp h
      obtain rfl := Option.some.inj h
      unfold MainState.signalHandler
      split_ifs
      · cases hl with
        | misused h => exact .misused h
        | undefined h => exact .undefined h
        | failing h => exact .failing h
        | noDisplay hpc h => exact .noDisplay hpc h
        | starting hpc h hfresh => exact .starting hpc h hfresh
      · exact hl
  | terminate =>
      obtain ⟨-, h⟩ := Option.ite_none_right_eq_some.mp h
      obtain rfl := Option.some.inj h
      have huse := hl.use .display
      unfold MainState.displayTerminate
      cases huse with
      | misused h => exact .misused h
      | undefined h => exact .undefined h
      | failing h => exact .failing h
      | noDisplay hpc h => exact .noDisplay hpc h
      | starting hpc h hfresh => exact .starting hpc h hfresh
  | server t act => exact hl.runServer h
  | _ => exact hmain h

/-- The loop thread makes no thread. -/
theorem runLoop_create {s : ServerState} {t : Tid} {pc : LoopPc} (ok : Bool) :
    s.runLoop t (.create ok) pc = none := by
  cases pc with
  | methodCall call pc =>
      cases pc with
      | search module => cases module <;> rfl
      | _ => rfl
  | _ => rfl

/-- The loop thread cannot be made: `main` takes the error path, which frees the server. -/
theorem StageOk.lost_create (hok : StageOk s g) (hstage : s.pc.stage s.bus.pc = some g) {t : Tid}
    (h : s.runServer t (.create false) = some s') : Lost s' := by
  unfold MainState.runServer at h
  obtain ⟨hin, h⟩ := Option.ite_none_left_eq_some.mp h
  obtain ⟨bus, hbus, h⟩ := Option.bind_eq_some_iff.mp h
  obtain rfl := Option.some.inj h
  obtain rfl : g = .connected := hok.busy t (busy_of_step hok.bus hin hbus)
  obtain ⟨hlt, owner, m, -, hm, hs⟩ := step_parts (bus_step_server hbus)
  have hcreate : s.bus.server.threads t = .start .create ∧
      m = s.bus.server.setThread t (.start .lockFailed) := by
    unfold ServerState.runThread at hm
    cases hthread : s.bus.server.threads t with rw [hthread] at hm
    | start pc =>
        unfold ServerState.runStart at hm
        cases pc with
        | create => exact ⟨rfl, (Option.some.inj hm).symm⟩
        | _ => cases hm
    | mainLoop pc =>
        exact absurd (hm.symm.trans (runLoop_create false)) (by simp)
    | _ => cases hm
  obtain ⟨hthread, rfl⟩ := hcreate
  -- only `main` makes a thread
  obtain rfl : t = 0 := by
    by_contra ht
    obtain ⟨rfl, -, hloop⟩ := hok.bus.other_tid ht hlt
    rcases hloop.alive with hfinished | ⟨pc, hpc⟩
    · rw [hthread] at hfinished; cases hfinished
    · rw [hthread] at hpc; cases hpc
  have hfree : s.bus.NoSteal (.server 0 (.create false)) := fun hne => absurd rfl hne
  have hinv := cleanupInv_step _ _ _ hok.bus hfree hbus
  rw [hthread, if_neg (by decide)]
  refine .starting ?_ ?_ hinv.fresh
  · show (s.useAll _).pc ≠ _
    rw [useAll_pc]
    intro hpc
    rw [hpc] at hstage
    cases hstage
  · show startFailed (bus.server.threads 0) = true
    rw [hs]
    simp [ServerState.setThread, startFailed]

/-- A failed initialisation, or a late call of a handler, is where a run gets lost. -/
theorem lost_of_not_smooth (hok : Staged s) (hg : smooth s act = false)
    (h : s.step act = some s') : Lost s' := by
  obtain ⟨g, hstage, hok⟩ := hok
  unfold MainState.step at h
  obtain ⟨-, h⟩ := Option.ite_none_left_eq_some.mp h
  cases act with
  | go | serve | signal | module => cases hg
  | result ok =>
      have hpc : ok = false ∧ s.pc = .addSocket := by
        unfold smooth at hg
        rw [Bool.or_eq_false_iff, bne_eq_false_iff_eq] at hg
        exact hg
      obtain ⟨rfl, hpc⟩ := hpc
      obtain ⟨-, h⟩ := Option.ite_none_right_eq_some.mp h
      unfold MainState.runMain at h
      rw [hpc] at h
      obtain rfl := Option.some.inj h
      exact .failing rfl
  | fatal returns =>
      have hpc : returns = true ∧ s.pc = .displayFatal := by
        simpa [smooth] using hg
      obtain ⟨rfl, hpc⟩ := hpc
      obtain ⟨-, h⟩ := Option.ite_none_right_eq_some.mp h
      unfold MainState.runMain at h
      rw [hpc] at h hstage
      obtain rfl := Option.some.inj hstage
      obtain rfl := Option.some.inj h
      refine .noDisplay rfl ?_
      change s.res.life _ ≠ _
      rw [hok.life]
      exact Life.noConfusion
  | created result =>
      obtain ⟨-, h⟩ := Option.ite_none_right_eq_some.mp h
      unfold MainState.runMain at h
      cases hc : s.pc with rw [hc] at h
      | dbusCreateServer =>
          obtain rfl := Option.some.inj h
          cases result with
          | created busName => cases hg
          | _ => exact .failing rfl
      | _ => cases h
  | terminate =>
      obtain ⟨-, h⟩ := Option.ite_none_right_eq_some.mp h
      obtain rfl := Option.some.inj h
      have hgone : s.pc.stage s.bus.pc = some .gone := by
        unfold smooth at hg
        rw [Bool.and_eq_false_iff, bne_eq_false_iff_eq, bne_eq_false_iff_eq] at hg
        obtain hpc | hpc := hg
        · rw [hpc]; rfl
        · rw [hpc]; rfl
      rw [hstage] at hgone
      obtain rfl := Option.some.inj hgone
      refine .misused (Ledger.misused_use ?_)
      rw [hok.life]
      exact Life.noConfusion
  | server t act =>
      cases act with
      | create ok =>
          cases ok with
          | true => cases hg
          | false => exact hok.lost_create hstage h
      | _ => cases hg

end Lost

/-- The condition on failures and on the handlers is not too strong: if the loop thread never takes the
mutex away, a run that gets to the end of `main` meets it at every step. -/
theorem main_returns_smooth {acts : List MainAct} {s' : MainState} {s : MainState} (hok : Staged s)
    (hsteal : AllSteps MainState.step NoSteal s acts)
    (h : exec MainState.step s acts = some s') (hret : Returned s') :
    AllSteps MainState.step (fun s act => smooth s act = true ∧ NoSteal s act) s acts := by
  induction acts generalizing s with
  | nil => trivial
  | cons act acts ih =>
      obtain ⟨m, hm, hrest⟩ := exec_cons_eq_some.mp h
      by_cases hg : smooth s act = true
      · refine ⟨⟨hg, hsteal.1⟩, fun s'' h'' => ?_⟩
        rw [hm] at h''
        obtain rfl := Option.some.inj h''
        exact ih (staged_step s act m hok ⟨hg, hsteal.1⟩ hm) (hsteal.2 m hm) hrest
      · have hlost := exec_invariant' lost_step
          (lost_of_not_smooth hok (Bool.eq_false_iff.mpr hg) hm) hrest
        exact absurd hret hlost.not_returned

end DesktopEngine.Main
