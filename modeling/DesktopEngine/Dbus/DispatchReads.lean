import DesktopEngine.Dbus.ServerSteps

/-!
# The records the dispatcher reads

`handle_method_call` reads a module at every turn of its search, and once more, without the mutex,
when it has found a handler: `method->handler` and `method->user_data` are fetched after the
`pthread_mutex_unlock`. `ReadState` makes that last read a step of its own.

A record is there as long as its module is registered. So the dispatcher reads no destroyed record as
long as nobody destroys the module it stands at, and the module of a handler that declined is still
there when the search goes on (`reads_sound_iff`).
-/

namespace DesktopEngine.Dbus

open Run ServerState

/-- The server, and for each thread the module whose method record it is about to read. -/
structure ReadState where
  server : ServerState
  unread : Tid → Option Ptr

inductive ReadAct where
  /-- A step of the server. -/
  | act (e : Tid × ServerAct)
  /-- The thread reads the handler and its argument from the method record. -/
  | read (t : Tid)
  deriving DecidableEq, Repr

/-- The module in which the thread has found a handler. -/
def ThreadState.found : ThreadState → Option Ptr
  | .mainLoop (.methodCall _ (.unlockToCall module _)) => some module
  | _ => none

namespace ReadState

def initial (reg : Registry) (busName : Option String) (threads : Tid) : ReadState :=
  ⟨.initial reg busName threads, fun _ => none⟩

/-- A thread that has given the mutex back for a handler reads the record before anything else. -/
def step (s : ReadState) : ReadAct → Option ReadState
  | .act e =>
      if (s.unread e.1).isSome then none
      else do
        let server ← s.server.step e
        some ⟨server, Function.update s.unread e.1 (s.server.threads e.1).found⟩
  | .read t =>
      if (s.unread t).isSome then some { s with unread := Function.update s.unread t none }
      else none

/-- The next thing the thread reads is a record of this module. -/
def Reads (s : ReadState) (t : Tid) (module : Ptr) : Prop :=
  (s.server.threads t).cursor = some module ∨ s.unread t = some module

end ReadState

/-! ## What is to be shown -/

/-- No thread is about to read a record of a module that was destroyed. -/
def ReadsSound (s : ReadState) : Prop :=
  ∀ t module, s.Reads t module → s.server.Registered module

/-- The step leaves the modules alone that somebody is about to read. -/
structure LeavesModules (s : ReadState) (t : Tid) : Prop where
  /-- It does not destroy one. -/
  kept : ∀ u module, s.Reads u module → module ∈ (s.server.modulesAfter t).map Prod.fst
  /-- A module whose handler declined is still registered. -/
  back : ∀ module, (s.server.threads t).backAt = some module → s.server.Registered module
  /-- So is the module of a handler that was found. -/
  found : ∀ module, (s.server.threads t).found = some module → s.server.Registered module

/-- Every step that can be taken leaves these modules alone. -/
def KeepsModules (s : ReadState) : ReadAct → Prop
  | .act e => (s.step (.act e)).isSome → LeavesModules s e.1
  | .read _ => True

/-! ## The invariant -/

structure ReadInv (s : ReadState) : Prop where
  sound : ReadsSound s
  fresh : ∀ u, s.server.nextTid ≤ u → s.server.threads u = .idle

theorem readInv_initial (reg : Registry) (busName : Option String) (threads : Tid) :
    ReadInv (.initial reg busName threads) where
  sound := by
    rintro t module (h | h)
    · cases h
    · cases h
  fresh := fun _ _ => rfl

section

variable {s s' : ReadState}

theorem act_parts {e : Tid × ServerAct} (h : s.step (.act e) = some s') :
    s.unread e.1 = none ∧ ∃ server, s.server.step e = some server ∧
      s' = ⟨server, Function.update s.unread e.1 (s.server.threads e.1).found⟩ := by
  simp only [ReadState.step] at h
  split_ifs at h with hunread
  obtain ⟨server, hserver, h⟩ := Option.bind_eq_some_iff.mp h
  exact ⟨by simpa using hunread, server, hserver, (Option.some.inj h).symm⟩

/-- A thread that holds on to a module is not in the critical section of a registry function. -/
theorem modulesAfter_of_reads {t : Tid} {module : Ptr}
    (h : (s.server.threads t).cursor = some module ∨ (s.server.threads t).backAt = some module ∨
      (s.server.threads t).found = some module) : s.server.modulesAfter t = s.server.modules := by
  have hbody : (s.server.threads t).registryBody = none := by
    cases hthread : s.server.threads t with
    | mainLoop pc =>
        cases pc with
        | methodCall call pc => rfl
        | handler call module handler op pc => rw [hthread] at h; rcases h with h | h | h <;> cases h
        | _ => rfl
    | registry op pc => rw [hthread] at h; rcases h with h | h | h <;> cases h
    | _ => rfl
  rw [modulesAfter, hbody]

/-- A thread that was not the one to move reads what it was about to read. -/
theorem reads_of_other {t u : Tid} {module : Ptr} {server : ServerState}
    (hframe : StepFrame s.server t server) (hu : u ≠ t) (found : Option Ptr) :
    ReadState.Reads ⟨server, Function.update s.unread t found⟩ u module ↔ s.Reads u module := by
  have hcursor : (server.threads u).cursor = (s.server.threads u).cursor := by
    rcases hframe.others u hu with heq | ⟨hidle, hentry⟩
    · rw [heq]
    · rw [hidle, hentry]; rfl
  unfold ReadState.Reads
  dsimp only
  rw [hcursor, Function.update_of_ne hu]

theorem readInv_step (s : ReadState) (a : ReadAct) (s' : ReadState) (h : ReadInv s)
    (hg : KeepsModules s a) (hs : s.step a = some s') : ReadInv s' := by
  cases a with
  | read t =>
      simp only [ReadState.step] at hs
      split_ifs at hs
      obtain rfl := Option.some.inj hs
      refine ⟨?_, h.fresh⟩
      rintro u module (hu | hu)
      · exact h.sound u module (Or.inl hu)
      · dsimp only at hu
        rcases eq_or_ne u t with rfl | hne
        · rw [Function.update_self] at hu; cases hu
        · rw [Function.update_of_ne hne] at hu
          exact h.sound u module (Or.inr hu)
  | act e =>
      have hleaves := hg (by rw [hs]; rfl)
      obtain ⟨-, server, hserver, rfl⟩ := act_parts hs
      have hframe := step_frame h.fresh hserver
      refine ⟨fun u module hu => ?_, hframe.fresh⟩
      rcases eq_or_ne u e.1 with rfl | hne
      · rcases hu with hu | hu
        · -- the thread that moved is at a module: the registry gave it, or it has come back
          rcases hframe.cursor module hu with hreg | hback | ⟨lost, hlost, hnot⟩
          · exact hreg
          · rw [Registered, hframe.modules, modulesAfter_of_reads (Or.inr (Or.inl hback))]
            exact hleaves.back module hback
          · exact absurd (h.sound _ lost (Or.inl hlost)) hnot
        · dsimp only at hu
          rw [Function.update_self] at hu
          rw [Registered, hframe.modules, modulesAfter_of_reads (Or.inr (Or.inr hu))]
          exact hleaves.found module hu
      · have hreads := (reads_of_other hframe hne _).mp hu
        rw [Registered, hframe.modules]
        exact hleaves.kept u module hreads

/-! ## The condition is needed -/

/-- A thread that takes the mutex back goes on where it was. -/
theorem cursor_of_backAt {t : Tid} {act : ServerAct} {module : Ptr} {server m : ServerState}
    (hback : (server.threads t).backAt = some module) (h : server.runThread t act = some m) :
    (m.threads t).cursor = some module := by
  unfold runThread at h
  cases hthread : server.threads t with
  | mainLoop pc =>
      rw [hthread] at hback h
      cases pc with
      | methodCall call pc =>
          cases pc with
          | relock q =>
              obtain rfl := Option.some.inj hback
              cases act with
              | run =>
                  obtain rfl := Option.some.inj h
                  show (Function.update server.threads t _ t).cursor = _
                  rw [Function.update_self]
                  rfl
              | _ => cases h
          | _ => cases hback
      | _ => cases hback
  | _ => rw [hthread] at hback; cases hback

theorem keepsModules_needed (s : ReadState) (a : ReadAct) (h : ReadInv s)
    (hg : ¬ KeepsModules s a) : ∃ s', s.step a = some s' ∧ ¬ ReadsSound s' := by
  cases a with
  | read t => exact absurd trivial hg
  | act e =>
      simp only [KeepsModules, not_forall] at hg
      obtain ⟨hsome, hnot⟩ := hg
      obtain ⟨s', hs⟩ := Option.isSome_iff_exists.mp hsome
      refine ⟨s', hs, fun hsound => hnot ?_⟩
      obtain ⟨hunread, server, hserver, rfl⟩ := act_parts hs
      have hframe := step_frame h.fresh hserver
      have hregistered : ∀ module, server.Registered module ↔
          module ∈ (s.server.modulesAfter e.1).map Prod.fst := by
        intro module
        rw [Registered, hframe.modules]
      refine ⟨fun u module hreads => ?_, fun module hback => ?_, fun module hfound => ?_⟩
      · rcases eq_or_ne u e.1 with rfl | hne
        · rcases hreads with hcursor | hnone
          · rw [modulesAfter_of_reads (Or.inl hcursor)]
            exact h.sound _ module (Or.inl hcursor)
          · rw [hunread] at hnone
            cases hnone
        · exact (hregistered module).mp (hsound u module ((reads_of_other hframe hne _).mpr hreads))
      · obtain ⟨-, owner, m, -, hm, rfl⟩ := step_parts hserver
        have hcursor : (m.threads e.1).cursor = some module := cursor_of_backAt hback hm
        have hreg := (hregistered module).mp (hsound e.1 module (Or.inl hcursor))
        rwa [modulesAfter_of_reads (Or.inr (Or.inl hback))] at hreg
      · have hreads : ReadState.Reads
            ⟨server, Function.update s.unread e.1 (s.server.threads e.1).found⟩ e.1 module :=
          Or.inr (by dsimp only; rw [Function.update_self]; exact hfound)
        have hreg := (hregistered module).mp (hsound e.1 module hreads)
        rwa [modulesAfter_of_reads (Or.inr (Or.inr hfound))] at hreg

end

/-! ## Runs -/

/--
**The dispatcher reads no destroyed record throughout a run exactly when every step leaves the
modules alone that a dispatcher is about to read.** The run is any interleaving of the loop threads,
of the registry calls of their handlers, and of any number of other threads, over any registry.
-/
theorem reads_sound_iff (reg : Registry) (busName : Option String) (threads : Tid)
    (acts : List ReadAct) :
    Throughout ReadState.step ReadsSound (.initial reg busName threads) acts ↔
      AllSteps ReadState.step KeepsModules (.initial reg busName threads) acts :=
  throughout_iff (fun _ => ReadInv.sound) readInv_step keepsModules_needed (readInv_initial _ _ _)

/-- Thread 1 finds a handler and gives the mutex back; thread 0 removes the module. -/
def removedModule : List ReadAct :=
  ([(0, .callStart), (0, .run), (0, .run), (0, .run), (0, .create true), (0, .run),
    (1, .unixFd true), (1, .run), (1, .run), (1, .run), (1, .poll .readable),
    (1, .pop (some ⟨.methodCall, some "/o", some "i", some "f", none, []⟩)),
    (1, .run), (1, .run), (1, .run),
    (0, .callRegistry (.removeModule (some "m"))), (0, .run), (0, .run)] :
    List (Tid × ServerAct)).map .act

/-- The handler is then fetched from the record of a method that was freed. -/
theorem reads_removedModule :
    ¬ Throughout ReadState.step ReadsSound (.initial answeringRegistry none 1) removedModule := by
  intro h
  exact absurd ((h.last rfl) 1 0 (Or.inr rfl)) List.not_mem_nil

end DesktopEngine.Dbus
