import DesktopEngine.Lib.Mailbox
import DesktopEngine.Renderer.Descriptors
import DesktopEngine.Renderer.DirtyFlag
import DesktopEngine.System.LiveWorld
import DesktopEngine.System.PixelFidelity

/-!
# The buffer that is shown

Between an `attach` and the texture lie the bus, the renderer's filter with its `fstat` and `mmap`,
the two threads with the `dirty` flag, and the upload. All of it together is a mailbox: the server
posts the buffer of an `attach`, the renderer's worker takes it and accepts it if it can be mapped,
and the main thread publishes what was accepted last. `letters` reads a run as a history of the
mailbox (`mails_run`); this does not depend on how the threads meet. That what is published is what
the texture is of does (`texture_step`): it holds as long as no flag is lost.

So whatever the clients do, the texture is of the last buffer that the renderer could map whenever
nothing waits (`shown_of_clean`), and between two calls of `draw_callback` the renderer can catch up
with what is on its way (`catches_up`).
-/

namespace DesktopEngine

open Wayland Dbus Renderer Run Latest

namespace LiveWorld

/-- The texture was copied from the file that was received with the request, or it is still the first
pixel. -/
def Shows (v : Vulkan) : Option BufferRequest → Prop
  | none => v = RendererState.start.vulkan
  | some req => ∃ buffer, Received req buffer ∧ DirtyFlag.Holds v buffer

/-! ## The mailbox -/

/-- The mailbox that a state stands for, but for what is shown. -/
structure Mails (s : LiveWorld) (m : Mailbox BufferRequest) : Prop where
  pending : m.pending = s.world.inFlight.filterMap Signal.request
  slot : m.slot = s.request
  fresh : m.fresh = s.waiting

/-- What a step from `s` to `s'` does to the mailbox. -/
def letter (s s' : LiveWorld) : LiveEvent → Option (Mailbox.Event BufferRequest)
  | .server _ =>
      ((s'.world.inFlight.drop s.world.inFlight.length).head?.bind Signal.request).map .post
  | .deliver env =>
      match s.world.inFlight with
      | [] => none
      | sig :: _ =>
          if (s.world.renderer.bufferMgr.files env.fd).isSome then none
          else some (.take (BufferMgr.accepted sig.msg env).isSome)
  | .clear =>
      match s.worker with
      | .idle => some .publish
      | _ => none
  | _ => none

/-- What a run does to the mailbox. -/
def letters (s : LiveWorld) : List LiveEvent → List (Mailbox.Event BufferRequest)
  | [] => []
  | e :: events =>
      match s.step e with
      | none => []
      | some s' => (s.letter s' e).toList ++ s'.letters events

/-- What the threads may rely on. -/
structure LiveOk (s : LiveWorld) : Prop where
  world : WorldOk s.world
  record : RecordOk s.world
  storing : ∀ request buffer, s.worker = .storing request buffer →
    ∃ req, request = some req ∧ Received req buffer
  marking : s.worker = .marking → s.world.received ≠ none
  drawing : s.main ≠ .idle → s.world.buffers.dirty = true
  apart : s.main = .uploading false → s.worker.isStoring = false

/-- What the texture is of: before the flag is cleared the record, unless it has been replaced, and
outside of `draw_callback` what the mailbox shows, unless something waits. -/
structure Texture (s : LiveWorld) (m : Mailbox BufferRequest) : Prop where
  uploaded : s.main = .uploaded false → Shows s.world.renderer.vulkan s.world.received
  shown : s.main = .idle → m.fresh = false → Shows s.world.renderer.vulkan m.shown

theorem liveOk_initial : LiveOk initial where
  world := worldOk_initial
  record := recordOk_initial
  storing := fun _ _ h => by cases h
  marking := fun h => by cases h
  drawing := fun h => absurd rfl h
  apart := fun h => by cases h

theorem mails_initial : Mails initial .empty := ⟨rfl, rfl, rfl⟩

theorem texture_initial : Texture initial .empty := ⟨fun h => (by cases h), fun _ _ => rfl⟩

variable {s s' : LiveWorld} {m : Mailbox BufferRequest}

/-! ## What the steps do -/

/-- The server leaves the renderer alone, and posts what it sends. -/
structure Served (w w' : World) (l : Option (Mailbox.Event BufferRequest)) : Prop where
  ok : WorldOk w'
  renderer : w'.renderer = w.renderer
  received : w'.received = w.received
  posted : ∃ sent, l.toList = sent.map .post ∧
    w'.inFlight.filterMap Signal.request = w.inFlight.filterMap Signal.request ++ sent

theorem served (h : LiveOk s) {e : WorldEvent} {w : World} (hs : s.world.serverStep e = some w) :
    Served s.world w (s.letter { s with world := w } (.server e)) := by
  have hstep : s.world.step e = some w := by
    cases e with
    | deliver env => cases hs
    | draw env => cases hs
    | _ => exact hs
  have hok := worldOk_step h.world hstep
  cases step_cases h.world.requests hstep with
  | server _ heq =>
      have hflight : w.inFlight = s.world.inFlight := by rw [heq]
      refine ⟨hok, by rw [heq], by rw [heq], [], ?_, ?_⟩
      · simp [letter, hflight]
      · rw [hflight, List.append_nil]
  | attach sent heq hsent =>
      have hflight : w.inFlight = s.world.inFlight ++ sent := by rw [heq]
      refine ⟨hok, by rw [heq], by rw [heq], sent.filterMap Signal.request, ?_, ?_⟩
      · rcases hsent with rfl | ⟨_, sig, _, _, rfl, _, req, hreq, -⟩
        · simp [letter, hflight]
        · simp [letter, hflight, hreq]
      · rw [hflight, List.filterMap_append]
  | deliver heq => cases hs
  | draw r _ heq => cases hs

/-- What the worker does with the oldest signal. -/
inductive Delivered (s s' : LiveWorld) (l : Option (Mailbox.Event BufferRequest)) : Prop
  | nothing (letter : l = none) (eq : s' = s)
  | refused {sig : Signal} {rest : List Signal} {mgr : BufferMgr} {req : BufferRequest}
      (letter : l = some (.take false)) (inFlight : s.world.inFlight = sig :: rest)
      (request : sig.request = some req) (same : mgr.buffers = s.world.buffers)
      (eq : s' = { s with world := { s.world with
        inFlight := rest, renderer := { s.world.renderer with bufferMgr := mgr } } })
  | accepted {sig : Signal} {rest : List Signal} (mgr : BufferMgr) {req : BufferRequest}
      {buffer : RenderBuffer} (letter : l = some (.take true))
      (inFlight : s.world.inFlight = sig :: rest) (request : sig.request = some req)
      (received : Received req buffer) (same : mgr.buffers = s.world.buffers)
      (eq : s' =
        { world := { s.world with
            inFlight := rest, renderer := { s.world.renderer with bufferMgr := mgr } }
          worker := .storing (some req) buffer
          main := s.main.disturb })

theorem delivered (h : LiveOk s) (env : MessageEnv) :
    Delivered s (s.deliver env) (s.letter (s.deliver env) (.deliver env)) := by
  have hrecord := recordOk_deliver h.world h.record env
  unfold letter
  cases hin : s.world.inFlight with
  | nil =>
      have hsame : s.world.deliver env = s.world := by rw [World.deliver, hin]
      refine .nothing rfl ?_
      rw [deliver, hsame, if_pos rfl]
  | cons sig rest =>
      dsimp only
      by_cases hfd : (s.world.renderer.bufferMgr.files env.fd).isSome = true
      · -- a descriptor that is in use cannot be received
        have hsame : s.world.deliver env = s.world := by
          rw [World.deliver, hin]
          exact if_pos hfd
        rw [if_pos hfd]
        refine .nothing rfl ?_
        rw [deliver, hsame, if_pos rfl]
      · obtain ⟨req, hreq, -⟩ := h.world.signals sig (by rw [hin]; exact List.mem_cons_self)
        have hdel : s.world.deliver env = { s.world with
            inFlight := rest
            renderer := { s.world.renderer with
              bufferMgr := (s.world.renderer.bufferMgr.messageHandler sig.msg env).1 }
            received :=
              if (s.world.renderer.bufferMgr.messageHandler sig.msg env).1.nextMap =
                s.world.renderer.bufferMgr.nextMap then s.world.received else sig.request } := by
          rw [World.deliver, hin]
          exact if_neg hfd
        rw [if_neg hfd]
        cases hacc : BufferMgr.accepted sig.msg env with
        | none =>
            obtain ⟨hbuf, hnext⟩ := BufferMgr.messageHandler_of_rejected
              (m := s.world.renderer.bufferMgr) hacc
            refine .refused rfl hin hreq hbuf ?_
            rw [deliver, hdel]
            dsimp only
            rw [if_pos hnext, if_pos hnext]
        | some upd =>
            have hnext := (BufferMgr.messageHandler_of_accepted
              (m := s.world.renderer.bufferMgr) hacc).2
            have hne : (s.world.renderer.bufferMgr.messageHandler sig.msg env).1.nextMap ≠
                s.world.renderer.bufferMgr.nextMap := by
              rw [hnext]
              exact Nat.succ_ne_self _
            have hreceived : (s.world.deliver env).received = some req := by
              rw [hdel]
              exact (if_neg hne).trans hreq
            refine .accepted { (s.world.renderer.bufferMgr.messageHandler sig.msg env).1 with
              buffers := s.world.buffers } rfl hin hreq (hrecord.received req hreceived) rfl ?_
            rw [deliver, hreceived, hdel]
            dsimp only
            rw [if_neg hne]
            rfl

/-- The upload of a record that nobody stores to. -/
theorem finish_shows (h : LiveOk s) (hmain : s.main = .uploading false) {env : UploadEnv}
    {torn : Option Vulkan} (hs : s.finish env torn = some s') :
    ∃ vulkan, s' = { s with world := s.world.setVulkan vulkan, main := .uploaded false } ∧
      Shows vulkan s.world.received := by
  have hdirty := h.drawing (by rw [hmain]; simp)
  simp only [finish, hmain] at hs
  obtain ⟨vulkan, hv, rfl⟩ := Option.map_eq_some_iff.mp hs
  refine ⟨vulkan, rfl, ?_⟩
  cases hreq : s.world.received with
  | none =>
      have hclean : s.world.buffers.dirty = false := h.record.clean hreq
      rw [hclean] at hdirty
      cases hdirty
  | some req =>
      have hrec : Received req s.world.buffers := h.record.received req hreq
      obtain ⟨map, hdata, -⟩ := hrec.data
      have hsize : s.world.buffers.size ≠ 0 := by
        intro h0
        have hpos := hrec.pos
        rw [← hrec.size, h0] at hpos
        exact absurd hpos (by decide)
      simp only [Vulkan.updateVulkanTextureFromBuffer, hdata, if_neg hsize] at hv
      split_ifs at hv
      obtain rfl := Option.some.inj hv
      exact ⟨s.world.buffers, hrec, DirtyFlag.holds_upload _ hdata _⟩

/-- The end of an upload. -/
theorem finish_cases {env : UploadEnv} {torn : Option Vulkan} (hs : s.finish env torn = some s') :
    ∃ vulkan replaced, s.main = .uploading replaced ∧ s' =
      { s with world := s.world.setVulkan vulkan, main := .uploaded replaced } := by
  unfold finish at hs
  split at hs
  · rename_i hmain
    obtain ⟨vulkan, -, rfl⟩ := Option.map_eq_some_iff.mp hs
    exact ⟨vulkan, false, hmain, rfl⟩
  · rename_i hmain
    obtain ⟨vulkan, -, rfl⟩ := Option.map_eq_some_iff.mp hs
    exact ⟨vulkan, true, hmain, rfl⟩
  · cases hs

/-! ## One step -/

/-- A step that leaves the record alone. -/
theorem LiveOk.goto (h : LiveOk s) {w : World} {worker : Worker} {main : Drawing} (hok : WorldOk w)
    (hreceived : w.received = s.world.received) (hbuffers : w.buffers = s.world.buffers)
    (hstoring : ∀ request buffer, worker = .storing request buffer →
      ∃ req, request = some req ∧ Received req buffer)
    (hmarking : worker = .marking → s.world.received ≠ none)
    (hdrawing : main ≠ .idle → s.world.buffers.dirty = true)
    (hapart : main = .uploading false → worker.isStoring = false) : LiveOk ⟨w, worker, main⟩ where
  world := hok
  record := by
    refine ⟨?_, ?_⟩
    · show ∀ req, w.received = some req → Received req w.buffers
      rw [hreceived, hbuffers]
      exact h.record.received
    · show w.received = none → w.buffers.dirty = false
      rw [hreceived, hbuffers]
      exact h.record.clean
  storing := hstoring
  marking := by
    show worker = .marking → w.received ≠ none
    rw [hreceived]
    exact hmarking
  drawing := by
    show main ≠ .idle → w.buffers.dirty = true
    rw [hbuffers]
    exact hdrawing
  apart := hapart

theorem disturb_ne (main : Drawing) : main.disturb ≠ .uploading false := by
  cases main <;> simp [Drawing.disturb]

theorem disturb_idle {main : Drawing} : main.disturb = .idle ↔ main = .idle := by
  cases main <;> simp [Drawing.disturb]

theorem disturb_uploaded {main : Drawing} {replaced : Bool} :
    main.disturb = .uploaded replaced ↔ main = .uploaded replaced := by
  cases main <;> simp [Drawing.disturb]

theorem replace_ne (main : Drawing) : main.replace ≠ .uploaded false := by
  cases main <;> simp [Drawing.replace]

theorem replace_idle {main : Drawing} : main.replace = .idle ↔ main = .idle := by
  cases main <;> simp [Drawing.replace]

theorem replace_uploading {main : Drawing} (torn : Bool) :
    main.replace = .uploading torn ↔ main = .uploading torn := by
  cases main <;> simp [Drawing.replace]

theorem liveOk_deliver (h : LiveOk s) (env : MessageEnv) : LiveOk (s.deliver env) := by
  have hsignals : ∀ {sig rest}, s.world.inFlight = sig :: rest → ∀ x ∈ rest, SignalOk x :=
    fun hin x hx => h.world.signals x (by rw [hin]; exact List.mem_cons_of_mem _ hx)
  cases delivered h env with
  | nothing _ heq => rwa [heq]
  | refused _ hin _ hsame heq =>
      rw [heq]
      exact h.goto ⟨h.world.requests, hsignals hin⟩ rfl hsame h.storing h.marking h.drawing h.apart
  | accepted _ _ hin _ hrec hsame heq =>
      rw [heq]
      refine h.goto ⟨h.world.requests, hsignals hin⟩ rfl hsame ?_ (fun hm => by cases hm)
        (fun hm => h.drawing fun hidle => hm (disturb_idle.mpr hidle))
        (fun hm => absurd hm (disturb_ne _))
      intro request buffer hst
      cases hst
      exact ⟨_, rfl, hrec⟩

theorem liveOk_store (h : LiveOk s) (hs : s.store = some s') : LiveOk s' := by
  unfold store at hs
  cases hworker : s.worker with
  | idle => simp [hworker] at hs
  | marking => simp [hworker] at hs
  | storing request buffer =>
      simp only [hworker, Option.some.injEq] at hs
      subst hs
      obtain ⟨req, rfl, hrec⟩ := h.storing _ _ hworker
      have hapart : s.main.replace ≠ .uploading false := by
        intro hm
        have hnot := h.apart ((replace_uploading false).mp hm)
        rw [hworker] at hnot
        cases hnot
      refine ⟨⟨h.world.requests, h.world.signals⟩, ⟨fun req' hreq' => ?_, fun hnone => ?_⟩,
        fun _ _ hst => (by cases hst), fun _ hnone => (by cases hnone), fun hm => ?_,
        fun hm => absurd hm hapart⟩
      · obtain rfl := Option.some.inj hreq'
        exact hrec.setDirty _
      · cases hnone
      · exact h.drawing fun hidle => hm (replace_idle.mpr hidle)

theorem liveOk_step (h : LiveOk s) {e : LiveEvent} (hs : s.step e = some s') : LiveOk s' := by
  cases e with
  | server e =>
      obtain ⟨w, hw, rfl⟩ := Option.map_eq_some_iff.mp hs
      obtain ⟨hok, hrenderer, hreceived, -⟩ := served h hw
      exact h.goto hok hreceived (congrArg (·.bufferMgr.buffers) hrenderer) h.storing h.marking
        h.drawing h.apart
  | deliver env =>
      simp only [step] at hs
      split at hs
      · obtain rfl := Option.some.inj hs
        exact liveOk_deliver h env
      · cases hs
  | store => exact liveOk_store h hs
  | mark =>
      simp only [step] at hs
      split at hs
      · rename_i hworker
        obtain rfl := Option.some.inj hs
        refine ⟨⟨h.world.requests, h.world.signals⟩, ⟨fun req hreq => ?_, fun hnone => ?_⟩,
          fun _ _ hst => (by cases hst), fun hm => (by cases hm), fun _ => rfl, fun _ => rfl⟩
        · exact (h.record.received req hreq).setDirty true
        · exact absurd hnone (h.marking hworker)
      · cases hs
  | test =>
      obtain ⟨-, hs⟩ := Option.ite_none_right_eq_some.mp hs
      obtain rfl := Option.some.inj hs
      refine h.goto ⟨h.world.requests, h.world.signals⟩ rfl rfl h.storing h.marking ?_ ?_
      · intro hm
        by_contra hclean
        exact hm (if_neg hclean)
      · intro hm
        split at hm <;> cases hm
  | begin =>
      obtain ⟨hmain, hs⟩ := Option.ite_none_right_eq_some.mp hs
      obtain rfl := Option.some.inj hs
      refine h.goto ⟨h.world.requests, h.world.signals⟩ rfl rfl h.storing h.marking
        (fun _ => h.drawing (by rw [hmain]; simp)) ?_
      intro hm
      exact Drawing.uploading.inj hm
  | finish env torn =>
      obtain ⟨vulkan, replaced, hmain, rfl⟩ := finish_cases hs
      exact h.goto ⟨h.world.requests, h.world.signals⟩ rfl rfl h.storing h.marking
        (fun _ => h.drawing (by rw [hmain]; simp)) (fun hm => by cases hm)
  | clear =>
      simp only [step] at hs
      split at hs
      · obtain rfl := Option.some.inj hs
        exact ⟨⟨h.world.requests, h.world.signals⟩,
          ⟨fun req hreq => (h.record.received req hreq).setDirty false, fun _ => rfl⟩, h.storing,
          h.marking, fun hm => absurd rfl hm, fun hm => (by cases hm)⟩
      · cases hs

/-- **A step is what `letter` says**, to the mailbox. -/
theorem mails_step (h : LiveOk s) (hm : Mails s m) {e : LiveEvent} (hs : s.step e = some s') :
    Mails s' (m.run (s.letter s' e).toList) := by
  obtain ⟨hpending, hslot, hfresh⟩ := hm
  cases e with
  | server e =>
      obtain ⟨w, hw, rfl⟩ := Option.map_eq_some_iff.mp hs
      obtain ⟨-, hrenderer, hreceived, sent, hsent, hflight⟩ := served h hw
      rw [hsent, Mailbox.run_posts]
      refine ⟨?_, ?_, ?_⟩
      · exact (congrArg (· ++ sent) hpending).trans hflight.symm
      · show m.slot = request { s with world := w }
        rw [hslot, request, request]
        cases s.worker with
        | storing request buffer => rfl
        | _ => exact hreceived.symm
      · show m.fresh = waiting { s with world := w }
        rw [hfresh, waiting, waiting]
        cases s.worker with
        | idle => exact (congrArg (·.bufferMgr.buffers.dirty) hrenderer).symm
        | _ => rfl
  | deliver env =>
      simp only [step] at hs
      split at hs
      · rename_i hworker
        obtain rfl := Option.some.inj hs
        rw [request, hworker] at hslot
        rw [waiting, hworker] at hfresh
        cases delivered h env with
        | nothing hletter heq =>
            rw [hletter, heq]
            exact ⟨hpending, by rw [request, hworker]; exact hslot,
              by rw [waiting, hworker]; exact hfresh⟩
        | @refused sig rest mgr req hletter hin hreq hsame heq =>
            rw [hin, List.filterMap_cons_some hreq] at hpending
            rw [hletter, heq, Option.toList_some, Mailbox.run_refuse hpending]
            refine ⟨rfl, ?_, ?_⟩
            · rw [request, hworker]
              exact hslot
            · rw [waiting, hworker]
              exact hfresh.trans (congrArg RenderBuffer.dirty hsame).symm
        | @accepted sig rest mgr req buffer hletter hin hreq _ _ heq =>
            rw [hin, List.filterMap_cons_some hreq] at hpending
            rw [hletter, heq, Option.toList_some, Mailbox.run_accept hpending]
            exact ⟨rfl, rfl, rfl⟩
      · cases hs
  | store =>
      replace hs : s.store = some s' := hs
      unfold store at hs
      split at hs
      · rename_i request' buffer hworker
        obtain rfl := Option.some.inj hs
        rw [request, hworker] at hslot
        rw [waiting, hworker] at hfresh
        exact ⟨hpending, hslot, hfresh⟩
      · cases hs
  | mark =>
      simp only [step] at hs
      split at hs
      · rename_i hworker
        obtain rfl := Option.some.inj hs
        rw [request, hworker] at hslot
        rw [waiting, hworker] at hfresh
        exact ⟨hpending, hslot, hfresh⟩
      · cases hs
  | test =>
      obtain ⟨-, hs⟩ := Option.ite_none_right_eq_some.mp hs
      obtain rfl := Option.some.inj hs
      exact ⟨hpending, hslot, hfresh⟩
  | begin =>
      obtain ⟨-, hs⟩ := Option.ite_none_right_eq_some.mp hs
      obtain rfl := Option.some.inj hs
      exact ⟨hpending, hslot, hfresh⟩
  | finish env torn =>
      obtain ⟨vulkan, replaced, -, rfl⟩ := finish_cases hs
      exact ⟨hpending, hslot, hfresh⟩
  | clear =>
      simp only [step] at hs
      split at hs
      · obtain rfl := Option.some.inj hs
        unfold letter
        cases hworker : s.worker with
        | idle =>
            rw [request, hworker] at hslot
            exact ⟨hpending, by rw [request]; exact hslot, by rw [waiting]; rfl⟩
        | storing request' buffer =>
            rw [request, hworker] at hslot
            rw [waiting, hworker] at hfresh
            exact ⟨hpending, by rw [request]; exact hslot, by rw [waiting]; exact hfresh⟩
        | marking =>
            rw [request, hworker] at hslot
            rw [waiting, hworker] at hfresh
            exact ⟨hpending, by rw [request]; exact hslot, by rw [waiting]; exact hfresh⟩
      · cases hs

/-- **A step that loses no flag keeps the texture up to date.** -/
theorem texture_step (h : LiveOk s) (hm : Mails s m) (ht : Texture s m) {e : LiveEvent}
    (hown : ClearsOwn s e) (hs : s.step e = some s') :
    Texture s' (m.run (s.letter s' e).toList) := by
  obtain ⟨huploaded, hshown⟩ := ht
  cases e with
  | server e =>
      obtain ⟨w, hw, rfl⟩ := Option.map_eq_some_iff.mp hs
      obtain ⟨-, hrenderer, hreceived, sent, hsent, -⟩ := served h hw
      rw [hsent, Mailbox.run_posts]
      have hvulkan : w.renderer.vulkan = s.world.renderer.vulkan :=
        congrArg RendererState.vulkan hrenderer
      refine ⟨?_, ?_⟩
      · show s.main = .uploaded false → Shows w.renderer.vulkan w.received
        rw [hvulkan, hreceived]
        exact huploaded
      · show s.main = .idle → m.fresh = false → Shows w.renderer.vulkan m.shown
        rw [hvulkan]
        exact hshown
  | deliver env =>
      simp only [step] at hs
      split at hs
      · obtain rfl := Option.some.inj hs
        cases delivered h env with
        | nothing hletter heq =>
            rw [hletter, heq]
            exact ⟨huploaded, hshown⟩
        | @refused sig rest mgr req hletter hin hreq _ heq =>
            have hpending := hm.pending
            rw [hin, List.filterMap_cons_some hreq] at hpending
            rw [hletter, heq, Option.toList_some, Mailbox.run_refuse hpending]
            exact ⟨huploaded, hshown⟩
        | @accepted sig rest mgr req buffer hletter hin hreq _ _ heq =>
            have hpending := hm.pending
            rw [hin, List.filterMap_cons_some hreq] at hpending
            rw [hletter, heq, Option.toList_some, Mailbox.run_accept hpending]
            exact ⟨fun hmain => huploaded (disturb_uploaded.mp hmain), fun _ hclean => by cases hclean⟩
      · cases hs
  | store =>
      replace hs : s.store = some s' := hs
      unfold store at hs
      split at hs
      · rename_i request' buffer hworker
        obtain rfl := Option.some.inj hs
        have hfresh := hm.fresh
        rw [waiting, hworker] at hfresh
        exact ⟨fun hmain => absurd hmain (replace_ne _),
          fun _ hclean => Bool.noConfusion (hfresh.symm.trans hclean)⟩
      · cases hs
  | mark =>
      simp only [step] at hs
      split at hs
      · rename_i hworker
        obtain rfl := Option.some.inj hs
        have hfresh := hm.fresh
        rw [waiting, hworker] at hfresh
        exact ⟨huploaded, fun _ hclean => Bool.noConfusion (hfresh.symm.trans hclean)⟩
      · cases hs
  | test =>
      obtain ⟨hmain, hs⟩ := Option.ite_none_right_eq_some.mp hs
      obtain rfl := Option.some.inj hs
      refine ⟨fun hm' => ?_, fun _ hclean => hshown hmain hclean⟩
      replace hm' : (if s.world.buffers.dirty then Drawing.tested else .idle) =
        .uploaded false := hm'
      split at hm' <;> cases hm'
  | begin =>
      obtain ⟨-, hs⟩ := Option.ite_none_right_eq_some.mp hs
      obtain rfl := Option.some.inj hs
      exact ⟨fun hm' => (by cases hm'), fun hm' => (by cases hm')⟩
  | finish env torn =>
      obtain ⟨vulkan, replaced, hmain, rfl⟩ := finish_cases hs
      refine ⟨fun hm' => ?_, fun hm' => (by cases hm')⟩
      obtain rfl : replaced = false := Drawing.uploaded.inj hm'
      obtain ⟨vulkan', heq, hshows⟩ := finish_shows h hmain hs
      rw [heq]
      exact hshows
  | clear =>
      simp only [step] at hs
      split at hs
      · rename_i replaced hmain
        obtain rfl := Option.some.inj hs
        refine ⟨fun hm' => (by cases hm'), fun _ hclean => ?_⟩
        have hdirty := h.drawing (by rw [hmain]; simp)
        have hslot := hm.slot
        have hfresh := hm.fresh
        unfold letter at hclean ⊢
        cases hworker : s.worker with
        | idle =>
            -- the flag is the upload's own
            obtain rfl : replaced = false := by
              cases replaced with
              | false => rfl
              | true => exact absurd hworker (hown hmain)
            rw [request, hworker] at hslot
            rw [waiting, hworker, hdirty] at hfresh
            have hpublish : (m.step .publish).shown = m.slot := by
              rw [Mailbox.step, hfresh]
              rfl
            show Shows s.world.renderer.vulkan (m.step .publish).shown
            rw [hpublish, hslot]
            exact huploaded hmain
        | storing request' buffer =>
            rw [hworker] at hclean
            rw [waiting, hworker] at hfresh
            exact Bool.noConfusion (hfresh.symm.trans hclean)
        | marking =>
            rw [hworker] at hclean
            rw [waiting, hworker] at hfresh
            exact Bool.noConfusion (hfresh.symm.trans hclean)
      · cases hs

/-! ## Runs -/

theorem letters_append {as bs : List LiveEvent} (h : exec step s as = some s') :
    s.letters (as ++ bs) = s.letters as ++ s'.letters bs := by
  induction as generalizing s with
  | nil =>
      obtain rfl := Option.some.inj h
      rfl
  | cons e as ih =>
      obtain ⟨t, ht, hrest⟩ := exec_cons_eq_some.mp h
      rw [List.cons_append, letters, letters, ht]
      dsimp only
      rw [ih hrest, List.append_assoc]

theorem liveOk_run {events : List LiveEvent} (h : LiveOk s) (hrun : exec step s events = some s') :
    LiveOk s' :=
  exec_invariant' (fun _ _ _ h hs => liveOk_step h hs) h hrun

/-- A state and its mailbox. -/
structure Mailed (s : LiveWorld) (m : Mailbox BufferRequest) : Prop where
  ok : LiveOk s
  mails : Mails s m
  current : m.Current

theorem mailed_initial : Mailed initial .empty :=
  ⟨liveOk_initial, mails_initial, Mailbox.current_empty⟩

/-- **A run is a history of the mailbox.** -/
theorem mails_run {events : List LiveEvent} (h : Mailed s m)
    (hrun : exec step s events = some s') : Mailed s' (m.run (s.letters events)) := by
  -- on the events: the letters of the rest depend on where the first one leads
  induction events generalizing s m with
  | nil =>
      obtain rfl := Option.some.inj hrun
      exact h
  | cons e events ih =>
      obtain ⟨t, ht, hrest⟩ := exec_cons_eq_some.mp hrun
      rw [letters, ht]
      dsimp only
      rw [Mailbox.run_append]
      exact ih ⟨liveOk_step h.ok ht, mails_step h.ok h.mails ht, Mailbox.current_run h.current _⟩
        hrest

/-- **A run that loses no flag keeps the texture up to date.** -/
theorem texture_run {events : List LiveEvent} (h : Mailed s m) (ht : Texture s m)
    (hown : AllSteps step ClearsOwn s events) (hrun : exec step s events = some s') :
    Texture s' (m.run (s.letters events)) := by
  induction events generalizing s m with
  | nil =>
      obtain rfl := Option.some.inj hrun
      exact ht
  | cons e events ih =>
      obtain ⟨t, hs, hrest⟩ := exec_cons_eq_some.mp hrun
      rw [letters, hs]
      dsimp only
      rw [Mailbox.run_append]
      exact ih ⟨liveOk_step h.ok hs, mails_step h.ok h.mails hs, Mailbox.current_run h.current _⟩
        (texture_step h.ok h.mails ht hown.1 hs) (hown.2 t hs) hrest

/-- Where nothing waits, the texture is of what the mailbox keeps. -/
theorem Texture.shows (ht : Texture s m) (h : Mailed s m) (hmain : s.main = .idle)
    (hclean : s.waiting = false) : Shows s.world.renderer.vulkan m.slot := by
  have hfresh : m.fresh = false := h.mails.fresh.trans hclean
  rw [← h.current hfresh]
  exact ht.shown hmain hfresh

/-- The buffers that a run sends, in order. -/
def sent (events : List LiveEvent) : List BufferRequest := Mailbox.posted (initial.letters events)

/-- The buffers that the renderer reads from the bus, in order, and whether it can map them. -/
def handled (events : List LiveEvent) : List (BufferRequest × Bool) :=
  Mailbox.empty.taken (initial.letters events)

theorem slot_eq (events : List LiveEvent) :
    (Mailbox.empty.run (initial.letters events)).slot =
      latest? Mailbox.accepted? (handled events) :=
  (Mailbox.run_slot .empty _).trans Option.or_none

/--
**The texture is of the last buffer that the renderer could map**, whenever nothing waits and
`draw_callback` is not under way, in a run in which no flag is lost; and in every run what the renderer
has read from the bus is what was sent, in order and once, up to what is still on its way.
-/
theorem shown_of_clean {events : List LiveEvent} {s : LiveWorld}
    (h : exec step initial events = some s) :
    sent events = (handled events).map Prod.fst ++ s.world.inFlight.filterMap Signal.request ∧
      (AllSteps step ClearsOwn initial events → s.main = .idle → s.waiting = false →
        Shows s.world.renderer.vulkan (latest? Mailbox.accepted? (handled events))) := by
  have hmailed := mails_run mailed_initial h
  have hfifo := Mailbox.run_fifo .empty (initial.letters events)
  rw [hmailed.mails.pending] at hfifo
  refine ⟨hfifo, fun hown hmain hclean => ?_⟩
  rw [← slot_eq]
  exact (texture_run mailed_initial texture_initial hown h).shows hmailed hmain hclean

/-- Three buffers attached, the third of them the first again. -/
def attachThree : List LiveEvent :=
  ([.surface (.setDbus (some ⟨true⟩)),
    .shm (.createPool 0 5 ⟨0, 4096⟩ 4096 ⟨true, true, true⟩),
    .shm (.createBuffer 0 2 0 16 16 64 wlShmFormatXrgb8888 ⟨true, true⟩),
    .shm (.createBuffer 0 3 1024 8 8 32 wlShmFormatXrgb8888 ⟨true, true⟩),
    .surface (.createSurface 0 ⟨true, true⟩), .attach 0 (some 1) ⟨true, true⟩,
    .attach 0 (some 2) ⟨true, true⟩, .attach 0 (some 1) ⟨true, true⟩] : List WorldEvent).map .server

/-- The second is read while the first is about to be uploaded, and uploaded in its place; the third
cannot be mapped. -/
def overtaken : List LiveEvent :=
  attachThree ++ [.deliver ⟨7, true, true⟩, .store, .mark, .test, .deliver ⟨8, true, true⟩, .store,
    .begin, .finish ⟨true, (0, 0)⟩ none, .mark, .clear, .deliver ⟨9, true, false⟩]

/-- `ClearsOwn`, to be evaluated. -/
def clearsOwn (s : LiveWorld) : LiveEvent → Bool
  | .clear =>
      match s.main, s.worker with
      | .uploaded true, .idle => false
      | _, _ => true
  | _ => true

theorem clearsOwn_iff (s : LiveWorld) (e : LiveEvent) : clearsOwn s e = true ↔ ClearsOwn s e := by
  cases e with
  | clear =>
      unfold clearsOwn ClearsOwn
      cases s.main with
      | uploaded replaced => cases replaced <;> cases s.worker <;> simp
      | _ => simp
  | _ => exact iff_of_true rfl trivial

theorem clearsOwn_of_check {events : List LiveEvent}
    (h : checkSteps step clearsOwn initial events = true) :
    AllSteps step ClearsOwn initial events := by
  simpa only [clearsOwn_iff] using allSteps_of_check h

theorem shown_of_clean_overtaken : ∃ s, exec step initial overtaken = some s ∧
    (handled overtaken).map Prod.snd = [true, true, false] ∧
      Shows s.world.renderer.vulkan (latest? Mailbox.accepted? (handled overtaken)) := by
  have hrun : (exec step initial overtaken).map (fun s => decide (s.main = .idle) && !s.waiting) =
      some true := by decide
  obtain ⟨s, hs, hrest⟩ := Option.map_eq_some_iff.mp hrun
  obtain ⟨hmain, hclean⟩ := Bool.and_eq_true_iff.mp hrest
  have hown : AllSteps step ClearsOwn initial overtaken := clearsOwn_of_check (by decide)
  exact ⟨s, hs, by decide, (shown_of_clean hs).2 hown (of_decide_eq_true hmain)
    (by simpa using hclean)⟩

/-! ## Catching up -/

/-- What is on its way can be mapped, into descriptors that are free. -/
structure Mappable (w : World) (fds : List Int32) : Prop where
  files : ∀ sig ∈ w.inFlight, ∀ req, sig.request = some req → req.pool.file.size ≠ 0
  length : fds.length = w.inFlight.length
  nodup : fds.Nodup
  free : ∀ fd ∈ fds, 0 ≤ fd ∧ w.renderer.bufferMgr.files fd = none

/-- A signal is read, and nothing fails. -/
def plainUpdate (fd : Int32) : List LiveEvent := [.deliver (plainEnv fd), .store, .mark]

/-- An upload in which nothing fails. -/
def plainUpload : UploadEnv := ⟨true, (0, 0)⟩

theorem accepted_plain {sig : Signal} (h : SignalOk sig) {fd : Int32} (hfd : 0 ≤ fd)
    (hfile : ∀ req, sig.request = some req → req.pool.file.size ≠ 0) :
    (BufferMgr.accepted sig.msg (plainEnv fd)).isSome = true := by
  obtain ⟨req, hreq, -, hdec⟩ := h
  rw [BufferMgr.accepted_eq_some.mpr ⟨hdec, rfl, hfd, rfl, rfl, hfile req hreq⟩]
  rfl

/-- A plain delivery leaves the rest as it was, but for its own descriptor. -/
theorem Mappable.deliver {w : World} {fd : Int32} {fds : List Int32} (h : Mappable w (fd :: fds)) :
    Mappable (w.deliver (plainEnv fd)) fds := by
  obtain ⟨-, hfree⟩ := h.free fd List.mem_cons_self
  have hlen := h.length
  cases hin : w.inFlight with
  | nil =>
      rw [hin] at hlen
      cases hlen
  | cons sig rest =>
      have hnot : ¬ (w.renderer.bufferMgr.files (plainEnv fd).fd).isSome = true := by
        rw [show (plainEnv fd).fd = fd from rfl, hfree]
        exact Bool.false_ne_true
      -- the descriptor is free, so the message is delivered
      have hdeliver : (w.deliver (plainEnv fd)).inFlight = rest ∧
          (w.deliver (plainEnv fd)).renderer.bufferMgr =
            (w.renderer.bufferMgr.messageHandler sig.msg (plainEnv fd)).1 := by
        unfold World.deliver
        simp only [hin, if_neg hnot, and_self]
      refine ⟨fun sig' hsig' => ?_, ?_, (List.nodup_cons.mp h.nodup).2, fun fd' hfd' => ?_⟩
      · rw [hdeliver.1] at hsig'
        exact h.files sig' (by rw [hin]; exact List.mem_cons_of_mem _ hsig')
      · rw [hdeliver.1]
        rw [hin] at hlen
        exact Nat.succ.inj hlen
      · obtain ⟨hpos', hfree'⟩ := h.free fd' (List.mem_cons_of_mem _ hfd')
        have hne : fd ≠ fd' := by
          rintro rfl
          exact (List.nodup_cons.mp h.nodup).1 hfd'
        refine ⟨hpos', Option.not_isSome_iff_eq_none.mp fun hopen => ?_⟩
        rw [hdeliver.2] at hopen
        rcases (BufferMgr.messageHandler_open fd').mp hopen with hopen | hobtains
        · rw [hfree'] at hopen
          cases hopen
        · simp only [BufferMgr.obtains, Option.bind_eq_bind, Option.bind_eq_some_iff] at hobtains
          obtain ⟨_, _, _, _, hif⟩ := hobtains
          split_ifs at hif
          exact hne (Option.some.inj hif)

/-- Every signal on its way has a request behind it. -/
theorem length_pending {w : World} (hok : WorldOk w) :
    (w.inFlight.filterMap Signal.request).length = w.inFlight.length := by
  have hall : ∀ sigs : List Signal, (∀ sig ∈ sigs, SignalOk sig) →
      (sigs.filterMap Signal.request).length = sigs.length := by
    intro sigs h
    induction sigs with
    | nil => rfl
    | cons sig sigs ih =>
        obtain ⟨req, hreq, -⟩ := h sig List.mem_cons_self
        rw [List.filterMap_cons_some hreq, List.length_cons, List.length_cons,
          ih fun sig' hsig' => h sig' (List.mem_cons_of_mem _ hsig')]
  exact hall w.inFlight hok.signals

/-- Both threads are between two pieces of work. -/
structure Resting (s : LiveWorld) : Prop where
  worker : s.worker = .idle
  main : s.main = .idle

/-- The worker gets to the end of what it does. -/
theorem rest_run (hmain : s.main = .idle) :
    ∃ t, exec step s s.worker.rest = some t ∧ Resting t ∧ t.world.inFlight = s.world.inFlight ∧
      t.world.renderer.bufferMgr.files = s.world.renderer.bufferMgr.files := by
  cases hworker : s.worker with
  | idle => exact ⟨s, rfl, ⟨hworker, hmain⟩, rfl, rfl⟩
  | storing request' buffer =>
      have hstore : s.step .store = some
          { world := s.world.setBuffers { buffer with dirty := s.world.buffers.dirty } request'
            worker := .marking
            main := s.main.replace } := by
        rw [step, store, hworker]
      exact ⟨{ world := s.world.setBuffers { buffer with dirty := true } request'
               worker := .idle
               main := s.main.replace },
        by rw [Worker.rest, exec_cons, hstore]; rfl, ⟨rfl, replace_idle.mpr hmain⟩, rfl, rfl⟩
  | marking =>
      have hmark : s.step .mark = some { s with world := s.setDirty true, worker := .idle } := by
        rw [step, hworker]
      exact ⟨{ s with world := s.setDirty true, worker := .idle },
        by rw [Worker.rest, exec_cons, hmark]; rfl, ⟨rfl, hmain⟩, rfl, rfl⟩

/-- It does not concern the mailbox any more. -/
theorem letters_rest (s : LiveWorld) : s.letters s.worker.rest = [] := by
  cases hworker : s.worker with
  | idle => rfl
  | storing request' buffer => simp [Worker.rest, letters, step, store, hworker, letter]
  | marking => simp [Worker.rest, letters, step, hworker, letter]

/-- One signal is read. -/
theorem plainUpdate_run (h : LiveOk s) (hrest : Resting s) {fd : Int32} {fds : List Int32}
    (hmap : Mappable s.world (fd :: fds)) :
    ∃ t, exec step s (plainUpdate fd) = some t ∧ Resting t ∧ Mappable t.world fds ∧
      s.letters (plainUpdate fd) = [.take true] := by
  obtain ⟨hpos, hfree⟩ := hmap.free fd List.mem_cons_self
  have hrun := exec_deliver hrest.worker hrest.main (plainEnv fd)
  have hstep : s.step (.deliver (plainEnv fd)) = some (s.deliver (plainEnv fd)) := by
    rw [step, hrest.worker]
  -- the oldest signal is accepted
  have hletter : s.letter (s.deliver (plainEnv fd)) (.deliver (plainEnv fd)) =
      some (.take true) := by
    have hlen := hmap.length
    cases hin : s.world.inFlight with
    | nil =>
        rw [hin] at hlen
        cases hlen
    | cons sig rest =>
        have hmem : sig ∈ s.world.inFlight := by rw [hin]; exact List.mem_cons_self
        have hnot : ¬ (s.world.renderer.bufferMgr.files (plainEnv fd).fd).isSome = true := by
          rw [show (plainEnv fd).fd = fd from rfl, hfree]
          exact Bool.false_ne_true
        simp only [letter, hin]
        rw [if_neg hnot, accepted_plain (h.world.signals sig hmem) hpos (hmap.files sig hmem)]
  have hevents : plainUpdate fd =
      .deliver (plainEnv fd) :: (s.deliver (plainEnv fd)).worker.rest := by
    cases delivered h (plainEnv fd) with
    | nothing hl _ => rw [hletter] at hl; cases hl
    | refused hl => rw [hletter] at hl; cases hl
    | accepted _ _ _ _ _ _ heq => rw [heq]; rfl
  rw [hevents]
  refine ⟨_, hrun, ⟨hrest.worker, hrest.main⟩, hmap.deliver, ?_⟩
  rw [letters, hstep]
  dsimp only
  rw [hletter, letters_rest]
  rfl

/-- All of them are read. -/
theorem plainUpdates_run (h : LiveOk s) (hrest : Resting s) {fds : List Int32}
    (hmap : Mappable s.world fds) :
    ∃ t, exec step s (fds.flatMap plainUpdate) = some t ∧ Resting t ∧ t.world.inFlight = [] ∧
      s.letters (fds.flatMap plainUpdate) = List.replicate fds.length (.take true) := by
  -- on the descriptors, one for each signal on its way
  induction fds generalizing s with
  | nil => exact ⟨s, rfl, hrest, List.eq_nil_of_length_eq_zero hmap.length.symm, rfl⟩
  | cons fd fds ih =>
      obtain ⟨t, ht, hrest', hmap', hletters⟩ := plainUpdate_run h hrest hmap
      obtain ⟨u, hu, hrestu, hin, hletters'⟩ := ih (liveOk_run h ht) hrest' hmap'
      refine ⟨u, exec_append_eq_some.mpr ⟨t, ht, hu⟩, hrestu, hin, ?_⟩
      rw [List.flatMap_cons, letters_append ht, hletters, hletters', List.length_cons,
        List.replicate_succ, List.singleton_append]

/-- A `draw_callback` in which nothing fails. -/
theorem plainDraw_run (h : LiveOk s) (hrest : Resting s) :
    ∃ t, exec step s (drawCall s.world.buffers.dirty plainUpload) = some t ∧ Resting t ∧
      t.world.inFlight = s.world.inFlight ∧ t.world.received = s.world.received ∧
      t.world.buffers.dirty = false := by
  have hrun := exec_draw hrest.worker hrest.main plainUpload
  obtain ⟨r, hr, hclean⟩ : ∃ r, s.world.renderer.drawCallback plainUpload = some r ∧
      r.bufferMgr.buffers.dirty = false := by
    cases hdirty : s.world.renderer.bufferMgr.buffers.dirty with
    | false => exact ⟨_, by rw [RendererState.drawCallback, hdirty]; rfl, hdirty⟩
    | true =>
        cases hreq : s.world.received with
        | none =>
            rw [h.record.clean hreq] at hdirty
            cases hdirty
        | some req =>
            have hrec := h.record.received req hreq
            obtain ⟨m, hm, -⟩ := hrec.data
            exact ⟨_, by rw [drawCallback_dirty _ hdirty hrec hm]; rfl, rfl⟩
  rw [hr] at hrun
  exact ⟨_, hrun, ⟨hrest.worker, hrest.main⟩, rfl, rfl, hclean⟩

/-- No flag is lost in it. -/
theorem drawCall_clearsOwn (hrest : Resting s) (dirty : Bool) (env : UploadEnv) :
    AllSteps step ClearsOwn s (drawCall dirty env) := by
  cases dirty with
  | false => exact ⟨trivial, fun _ _ => trivial⟩
  | true =>
      refine ⟨trivial, fun s₁ h₁ => ⟨trivial, fun s₂ h₂ => ⟨trivial, fun s₃ h₃ => ⟨?_, fun _ _ =>
        trivial⟩⟩⟩⟩
      obtain ⟨-, h₁⟩ := Option.ite_none_right_eq_some.mp h₁
      obtain rfl := Option.some.inj h₁
      obtain ⟨-, h₂⟩ := Option.ite_none_right_eq_some.mp h₂
      obtain rfl := Option.some.inj h₂
      -- the upload did not meet a store
      obtain ⟨vulkan, replaced, hmain, rfl⟩ := finish_cases h₃
      have hstill : replaced = false := by
        rw [← Drawing.uploading.inj hmain]
        show s.worker.isStoring = false
        rw [hrest.worker]
        rfl
      intro huploaded
      cases hstill.symm.trans (Drawing.uploaded.inj huploaded)

/-- Nothing is cleared here. -/
theorem clearsOwn_of_not_clear {events : List LiveEvent} (h : ∀ e ∈ events, e ≠ .clear) :
    AllSteps step ClearsOwn s events := by
  refine allSteps_of_forall (fun e he t => ?_) s
  cases e with
  | clear => exact absurd rfl (h _ he)
  | _ => trivial

theorem rest_not_clear (worker : Worker) : ∀ e ∈ worker.rest, e ≠ .clear := by
  cases worker <;> simp [Worker.rest]

theorem plainUpdates_not_clear (fds : List Int32) :
    ∀ e ∈ fds.flatMap plainUpdate, e ≠ .clear := by
  intro e he
  obtain ⟨fd, -, he⟩ := List.mem_flatMap.mp he
  simp only [plainUpdate, List.mem_cons, List.not_mem_nil, or_false] at he
  rcases he with rfl | rfl | rfl <;> simp

/--
**The renderer can catch up between two calls of `draw_callback`**, after any run in which no flag was
lost: the worker finishes, reads what is on its way, `draw_callback` is called once, and the texture is
of the last buffer that was on its way, or of the last that could be mapped if there was none.
-/
theorem catches_up {events : List LiveEvent} {s : LiveWorld}
    (h : exec step initial events = some s) (hown : AllSteps step ClearsOwn initial events)
    (hmain : s.main = .idle) {fds : List Int32} (hmap : Mappable s.world fds) :
    ∃ t u, exec step s (s.worker.rest ++ fds.flatMap plainUpdate) = some t ∧
      exec step t (drawCall t.world.buffers.dirty plainUpload) = some u ∧
      u.world.inFlight = [] ∧ u.main = .idle ∧ u.waiting = false ∧
      Shows u.world.renderer.vulkan ((s.world.inFlight.filterMap Signal.request).getLast?.or
        (latest? Mailbox.accepted? (handled events))) := by
  have hs := mails_run mailed_initial h
  -- the worker finishes, and reads as many signals as there are
  obtain ⟨r, hr, hrest, hin, hfiles⟩ := rest_run hmain
  have hmapr : Mappable r.world fds :=
    ⟨by rw [hin]; exact hmap.files, by rw [hin]; exact hmap.length, hmap.nodup,
      by rw [hfiles]; exact hmap.free⟩
  obtain ⟨t, ht, hrestt, hint, hletters⟩ := plainUpdates_run (liveOk_run hs.ok hr) hrest hmapr
  have hst : exec step s (s.worker.rest ++ fds.flatMap plainUpdate) = some t :=
    exec_append_eq_some.mpr ⟨r, hr, ht⟩
  have hmailt := mails_run hs hst
  have htexturet := texture_run hs (texture_run mailed_initial texture_initial hown h)
    (clearsOwn_of_not_clear fun e he => (List.mem_append.mp he).elim
      (rest_not_clear s.worker e) (plainUpdates_not_clear fds e)) hst
  have hlen : fds.length = (Mailbox.empty.run (initial.letters events)).pending.length := by
    rw [hmap.length, hs.mails.pending]
    exact (length_pending hs.ok.world).symm
  rw [letters_append hr, letters_rest, List.nil_append, hletters, hlen] at hmailt htexturet
  have hslot := (Mailbox.run_takeAll (Mailbox.empty.run (initial.letters events))).2
  have hlast : (Mailbox.empty.run (initial.letters events)).pending.getLast?.or
        (Mailbox.empty.run (initial.letters events)).slot =
      (s.world.inFlight.filterMap Signal.request).getLast?.or
        (latest? Mailbox.accepted? (handled events)) := by
    rw [hs.mails.pending, slot_eq]
  -- and the main thread draws
  obtain ⟨u, hu, hrestu, hinu, hreceived, hclean⟩ := plainDraw_run hmailt.ok hrestt
  have hmailu := mails_run hmailt hu
  have htextureu := texture_run hmailt htexturet (drawCall_clearsOwn hrestt _ _) hu
  have hwaiting : u.waiting = false := by
    rw [waiting, hrestu.worker]
    exact hclean
  have hslott := hmailt.mails.slot
  have hslotu := hmailu.mails.slot
  rw [request, hrestt.worker] at hslott
  rw [request, hrestu.worker] at hslotu
  refine ⟨t, u, hst, hu, hinu.trans hint, hrestu.main, hwaiting, ?_⟩
  rw [← hlast, ← hslot, hslott, ← hreceived, ← hslotu]
  exact htextureu.shows hmailu hrestu.main hwaiting

/-- The first of the three buffers has been mapped, but not stored. -/
def behind : List LiveEvent := attachThree ++ [.deliver ⟨7, true, true⟩]

/-- Two buffers are on their way, and two descriptors are free. -/
def isMappable (w : World) : Bool :=
  w.inFlight.length = 2 ∧ (w.inFlight.all fun sig => sig.request.all fun req =>
    decide (req.pool.file.size ≠ 0)) ∧ (w.renderer.bufferMgr.files 8).isNone ∧
    (w.renderer.bufferMgr.files 9).isNone

theorem mappable_of_isMappable {w : World} (h : isMappable w = true) : Mappable w [8, 9] := by
  obtain ⟨hlen, hfiles, h8, h9⟩ := of_decide_eq_true h
  refine ⟨fun sig hsig req hreq => ?_, hlen.symm, by decide, fun fd hfd => ?_⟩
  · have hall := List.all_eq_true.mp hfiles sig hsig
    rw [hreq] at hall
    exact of_decide_eq_true hall
  · rcases List.mem_pair.mp hfd with rfl | rfl
    · exact ⟨by decide, Option.isNone_iff_eq_none.mp h8⟩
    · exact ⟨by decide, Option.isNone_iff_eq_none.mp h9⟩

theorem catches_up_behind : ∃ s t u, exec step initial behind = some s ∧ s.waiting = true ∧
    exec step s (s.worker.rest ++ [8, 9].flatMap plainUpdate) = some t ∧
    exec step t (drawCall t.world.buffers.dirty plainUpload) = some u ∧ u.waiting = false ∧
    Shows u.world.renderer.vulkan ((s.world.inFlight.filterMap Signal.request).getLast?.or
      (latest? Mailbox.accepted? (handled behind))) := by
  have hrun : (exec step initial behind).map (fun s =>
      decide (s.main = .idle) && (s.waiting && isMappable s.world)) = some true := by decide
  obtain ⟨s, hs, hstate⟩ := Option.map_eq_some_iff.mp hrun
  obtain ⟨hmain, hstate⟩ := Bool.and_eq_true_iff.mp hstate
  obtain ⟨hwaiting, hmap⟩ := Bool.and_eq_true_iff.mp hstate
  have hown : AllSteps step ClearsOwn initial behind := clearsOwn_of_check (by decide)
  obtain ⟨t, u, ht, hu, -, -, hclean, hshows⟩ :=
    catches_up hs hown (of_decide_eq_true hmain) (mappable_of_isMappable hmap)
  exact ⟨s, t, u, hs, hwaiting, ht, hu, hclean, hshows⟩

end LiveWorld

end DesktopEngine
