import DesktopEngine.System.World
import DesktopEngine.Wayland.Geometry
import DesktopEngine.Wayland.RequestsProof

/-!
# What the renderer is told about a buffer

The geometry of a buffer crosses four representations: the request, `struct buffer`, `BufferInfo`, and
the struct of an `Updated` signal, from which the renderer decodes it. The last three steps lose
nothing (`decodeUpdated_sent`). The loss is in between, where `surface_headless_attach` fills the
`BufferInfo` from the record: the stride is recomputed as four bytes a pixel, and the format is
`XRGB8888` for every shared-memory buffer.

`SignalOk` says exactly what is on its way for a request; it holds in every run (`worldOk_step`). The
signal conveys the request when the request's own stride and format are the ones that are made up for
it (`conveys_iff`), so a run keeps every signal faithful exactly when only such buffers are sent.
-/

namespace DesktopEngine

open Wayland Dbus Renderer Run CInt

/-! ## What is to be shown -/

/-- The decoded values are those of the request. -/
structure Conveys (req : BufferRequest) (update : BufferUpdate) : Prop where
  width : (update.width.toNat : Int) = req.width.toInt
  height : (update.height.toNat : Int) = req.height.toInt
  stride : (update.stride.toNat : Int) = req.stride.toInt
  format : update.format = req.format
  typeStr : update.typeStr = some "SHM"

/-- Whatever is on its way conveys the request behind it. -/
def TransportFaithful (w : World) : Prop :=
  ∀ sig ∈ w.inFlight, ∃ req update, sig.request = some req ∧
    decodeUpdated sig.msg = some update ∧ Conveys req update

/-- The stride is four bytes a pixel, in 32 bits, and the format is `XRGB8888`. -/
def Wayland.BufferRequest.SentAsIs (req : BufferRequest) : Prop :=
  req.stride.toInt = 4 * req.width.toInt % 2 ^ 32 ∧ req.format = wlShmFormatXrgb8888

/-- An `attach` of this buffer to this surface sends a signal. -/
structure World.Sends (w : World) (surface r : ResId) (env : SendEnv) : Prop where
  created : env.created = true
  queued : env.queued = true
  connected : ∃ dbus, w.surfaces.dbusServer = some dbus ∧ dbus.connection = true
  target : ∃ p, w.surfaces.wlResourceGetUserData surface = some (.surface p) ∧
    (w.surfaces.surfaces p).isSome
  buffer : ∃ c d, w.surfaces.dispatches surface .wlSurface = some c ∧
    w.shm.resources r = some ⟨c, .wlBuffer, some d⟩ ∧ (w.shm.buffers d).isSome

/-- A step that sends a buffer sends one whose request survives it. -/
def SendsAsIs (w : World) : WorldEvent → Prop
  | .attach surface (some r) env => w.Sends surface r env →
      ∀ req, w.requests.buffers r = some req → req.SentAsIs
  | _ => True

/-! ## What is sent -/

/-- What the renderer decodes for a request; `fd` is the file behind the descriptor. -/
def sentUpdate (req : BufferRequest) (fd : Option File) : BufferUpdate where
  width := req.width.toUInt32
  height := req.height.toUInt32
  stride := req.width.toUInt32 * 4
  format := wlShmFormatXrgb8888
  typeStr := some "SHM"
  formatStr := some "SHM"
  fd := fd

/-- **The struct is read as it was written.** -/
theorem decodeUpdated_sent {created queued : Bool} {files : Int32 → Option File} {info : BufferInfo}
    {msg : DBusMessage}
    (h : bufferModuleSendUpdateSignal created queued files info = some msg) :
    decodeUpdated msg = some
      { width := info.width
        height := info.height
        stride := info.stride
        format := info.format
        typeStr := some (typeStr info.type)
        formatStr := some (info.formatStr.getD "")
        fd := files info.fd } := by
  unfold bufferModuleSendUpdateSignal at h
  split_ifs at h
  obtain rfl := Option.some.inj h
  have hsig : ∀ body, DBusMessage.isSignal
      { type := .signal
        path := some bufferPath
        interface := some bufferInterface
        member := some "Updated"
        destination := none
        body := body } "org.skapty6260.DesktopEngine.Buffer" "Updated" = true := by
    intro body
    simp [DBusMessage.isSignal, bufferInterface]
  rw [decodeUpdated, if_pos (hsig _)]
  cases hfd : files info.fd <;>
    simp [updateFields, readStruct, takeUint32, takeString, takeUnixFd, hfd]

/-- The record of a request, turned into a `BufferInfo` and read on the other side. -/
theorem decodeUpdated_attach {req : BufferRequest} {buf : Buffer} (hrec : req.Records buf)
    {created queued : Bool} {files : Int32 → Option File} {msg : DBusMessage}
    (h : bufferModuleSendUpdateSignal created queued files (SurfaceState.attachInfo buf) =
      some msg) : decodeUpdated msg = some (sentUpdate req (files buf.fd)) := by
  obtain ⟨id, hfill⟩ := hrec.filled
  rw [decodeUpdated_sent h]
  rw [bufferCreateShm, if_pos rfl] at hfill
  rw [← Option.some.inj hfill]
  rfl

/-- **Which requests survive the way.** -/
theorem conveys_iff {req : BufferRequest} (fd : Option File)
    (hacc : createBufferChecks req.pool.size.bytes req.offset req.width req.height req.stride
      req.format = none) : Conveys req (sentUpdate req fd) ↔ req.SentAsIs := by
  obtain ⟨_, _, hw, hh, _⟩ := createBufferChecks_iff.mp hacc
  have hwidth := toUInt32_of_nonneg (Int.le_of_lt hw)
  have hstride : ((sentUpdate req fd).stride.toNat : Int) = 4 * req.width.toInt % 2 ^ 32 := by
    show ((req.width.toUInt32 * 4).toNat : Int) = _
    rw [mul32_toNat, hwidth, Int.mul_comm]
    rfl
  constructor
  · intro h
    exact ⟨by rw [← h.stride, hstride], h.format.symm⟩
  · intro h
    exact ⟨hwidth, toUInt32_of_nonneg (Int.le_of_lt hh), by rw [hstride, h.1], h.2.symm, rfl⟩

/-! ## What a step does -/

/-- A signal is what the server makes of the request behind it. -/
def SignalOk (sig : Signal) : Prop :=
  ∃ req, sig.request = some req ∧
    createBufferChecks req.pool.size.bytes req.offset req.width req.height req.stride
      req.format = none ∧
    decodeUpdated sig.msg = some (sentUpdate req (some req.pool.file))

/-- The handler of `attach` calls `buffer_module_send_update_signal` once if there is a connection,
and else not at all. -/
theorem newSignals_attach {s s' : SurfaceState} {surface : ResId} {buf : Buffer}
    (hdata : s.wlResourceGetUserData surface ≠ none)
    (h : s.surfaceHeadlessAttach surface (some buf) = some s') :
    (∃ p, s.wlResourceGetUserData surface = some (.surface p) ∧ (s.surfaces p).isSome) ∧
      ((World.newSignals s s' = [] ∧ ∀ dbus, s.dbusServer = some dbus → dbus.connection = false) ∨
        (World.newSignals s s' = [SurfaceState.attachInfo buf] ∧
          ∃ dbus, s.dbusServer = some dbus ∧ dbus.connection = true)) := by
  unfold SurfaceState.surfaceHeadlessAttach at h
  cases hd : s.wlResourceGetUserData surface with
  | none => exact absurd hd hdata
  | some ref =>
      rw [hd] at h
      cases ref with
      | sentinel => cases h
      | surface p =>
          simp only [Option.bind_eq_bind, Option.bind_eq_some_iff] at h
          obtain ⟨sf, hsf, h⟩ := h
          refine ⟨⟨p, rfl, by rw [hsf]; rfl⟩, ?_⟩
          have hnil : World.newSignals s s = [] := by simp [World.newSignals]
          cases hdbus : s.dbusServer with
          | none =>
              rw [hdbus] at h
              obtain rfl := Option.some.inj h
              exact Or.inl ⟨hnil, by simp⟩
          | some dbus =>
              rw [hdbus] at h
              dsimp only at h
              split_ifs at h with hc
              · obtain rfl := Option.some.inj h
                exact Or.inr ⟨by simp [World.newSignals], dbus, rfl, hc⟩
              · obtain rfl := Option.some.inj h
                exact Or.inl ⟨hnil, by simpa using hc⟩

/-- A signal of a `wl_buffer` that exists is what the server makes of the request for it. -/
theorem signalOk_send {w : World} (h : RequestOk w.requests w.shm) {r : ResId} {c : ClientId}
    {b : Ptr} {buf : Buffer} (hr : w.shm.resources r = some ⟨c, .wlBuffer, some b⟩)
    (hb : w.shm.buffers b = some buf) {env : SendEnv} {sig : Signal}
    (hs : w.send r env (SurfaceState.attachInfo buf) = some sig) :
    (env.created = true ∧ env.queued = true) ∧ sig.request = w.requests.buffers r ∧
      SignalOk sig := by
  obtain ⟨bs, hinv⟩ := h
  obtain ⟨req, hreq, hrec, hfile⟩ := hinv.bufferRequest r c b buf hr hb
  obtain ⟨msg, hmsg, rfl⟩ := Option.map_eq_some_iff.mp hs
  refine ⟨?_, rfl, req, hreq, hrec.accepted, ?_⟩
  · unfold bufferModuleSendUpdateSignal at hmsg
    obtain ⟨created, queued⟩ := env
    cases created <;> cases queued <;> simp at hmsg ⊢
  · rw [decodeUpdated_attach hrec hmsg, hfile]

/-- **An `attach` sends nothing, or the signal of its buffer.** -/
theorem attach_cases {w w' : World} (h : RequestOk w.requests w.shm) {surface : ResId}
    {buffer : Option ResId} {env : SendEnv} (hs : w.attach surface buffer env = some w') :
    ∃ sent, w' = { w with surfaces := w'.surfaces, inFlight := w.inFlight ++ sent } ∧
      (sent = [] ∨ ∃ r sig, buffer = some r ∧ w.Sends surface r env ∧ sent = [sig] ∧
        sig.request = w.requests.buffers r ∧ SignalOk sig) := by
  have hself : ∀ {t}, some w = some t →
      ∃ sent, t = { w with surfaces := t.surfaces, inFlight := w.inFlight ++ sent } ∧ sent = [] := by
    intro t ht
    obtain rfl := Option.some.inj ht
    exact ⟨[], by rw [List.append_nil], rfl⟩
  unfold World.attach at hs
  cases hdisp : w.surfaces.dispatches surface .wlSurface with
  | none =>
      rw [hdisp] at hs
      obtain ⟨sent, h1, h2⟩ := hself hs
      exact ⟨sent, h1, Or.inl h2⟩
  | some client =>
      rw [hdisp] at hs
      cases buffer with
      | none =>
          simp only [World.surfaceStep, Option.bind_eq_bind, Option.bind_eq_some_iff] at hs
          obtain ⟨surfaces, _, hs⟩ := hs
          obtain rfl := Option.some.inj hs
          exact ⟨[], by rw [List.append_nil], Or.inl rfl⟩
      | some r =>
          dsimp only at hs
          cases hr : w.shm.resources r with
          | none =>
              rw [hr] at hs
              obtain ⟨sent, h1, h2⟩ := hself hs
              exact ⟨sent, h1, Or.inl h2⟩
          | some res =>
              rw [hr] at hs
              dsimp only at hs
              -- libwayland checks that the argument is a `wl_buffer` of the same client
              by_cases hres : res.interface = .wlBuffer ∧ res.client = client
              · rw [if_pos hres, World.attachBuffer] at hs
                cases hdata : w.surfaces.wlResourceGetUserData surface with
                | none =>
                    rw [hdata] at hs
                    obtain ⟨sent, h1, h2⟩ := hself hs
                    exact ⟨sent, h1, Or.inl h2⟩
                | some ref =>
                    rw [hdata] at hs
                    simp only [Option.bind_eq_bind, Option.bind_eq_some_iff] at hs
                    obtain ⟨b, hb, buf, hbuf, surfaces, hsurf, hs⟩ := hs
                    obtain rfl := Option.some.inj hs
                    refine ⟨_, rfl, ?_⟩
                    obtain ⟨c, i, d⟩ := res
                    obtain ⟨rfl, rfl⟩ : i = .wlBuffer ∧ c = client := hres
                    obtain rfl : d = some b := hb
                    obtain ⟨htarget, hnew | ⟨hnew, hconn⟩⟩ :=
                      newSignals_attach (by rw [hdata]; simp) hsurf
                    · left
                      rw [hnew.1]
                      rfl
                    · -- the handler got as far as the call; the message may still not be sent
                      rw [hnew]
                      cases hsend : w.send r env (SurfaceState.attachInfo buf) with
                      | none => left; simp [hsend]
                      | some sig =>
                          right
                          obtain ⟨⟨h1, h2⟩, hreq, hok⟩ := signalOk_send h hr hbuf hsend
                          exact ⟨r, sig, rfl,
                            ⟨h1, h2, hconn, htarget, c, b, hdisp, hr, by rw [hbuf]; rfl⟩,
                            by simp [hsend], hreq, hok⟩
              · rw [if_neg hres] at hs
                obtain ⟨sent, h1, h2⟩ := hself hs
                exact ⟨sent, h1, Or.inl h2⟩

/-- An `attach` that sends does send. -/
theorem attach_of_sends {w : World} {surface r : ResId} {env : SendEnv}
    (hs : w.Sends surface r env) : ∃ w' sig, w.attach surface (some r) env = some w' ∧
      sig ∈ w'.inFlight ∧ sig.request = w.requests.buffers r := by
  obtain ⟨h1, h2, ⟨dbus, hdbus, hconn⟩, ⟨p, hp, hsf⟩, c, b, hdisp, hr, hb⟩ := hs
  obtain ⟨sf, hsf⟩ := Option.isSome_iff_exists.mp hsf
  obtain ⟨buf, hbuf⟩ := Option.isSome_iff_exists.mp hb
  refine ⟨_, _, by
    simp [World.attach, hdisp, hr, World.attachBuffer, hp, hbuf, SurfaceState.surfaceHeadlessAttach,
      hsf, hdbus, hconn, World.newSignals, World.send, bufferModuleSendUpdateSignal, h1, h2]
    rfl, List.mem_append_right _ List.mem_cons_self, rfl⟩

/-- A delivery changes nothing, or the oldest signal is handled. -/
theorem deliver_cases (w : World) (env : MessageEnv) :
    w.deliver env = w ∨ ∃ sig rest, w.inFlight = sig :: rest ∧
      w.deliver env = { w with
        inFlight := rest
        renderer := { w.renderer with
          bufferMgr := (w.renderer.bufferMgr.messageHandler sig.msg env).1 }
        received :=
          if (w.renderer.bufferMgr.messageHandler sig.msg env).1.nextMap =
            w.renderer.bufferMgr.nextMap then w.received else sig.request } := by
  cases hin : w.inFlight with
  | nil => left; rw [World.deliver, hin]
  | cons sig rest =>
      by_cases hfd : (w.renderer.bufferMgr.files env.fd).isSome = true
      · left
        rw [World.deliver, hin]
        dsimp only
        rw [if_pos hfd]
      · right
        refine ⟨sig, rest, rfl, ?_⟩
        rw [World.deliver, hin]
        dsimp only
        rw [if_neg hfd]

/-- The four kinds of steps. -/
inductive StepKind (w w' : World) : WorldEvent → Prop where
  /-- The server works alone. -/
  | server {e : WorldEvent} (requests : RequestOk w'.requests w'.shm)
      (eq : w' = { w with shm := w'.shm, surfaces := w'.surfaces, requests := w'.requests }) :
      StepKind w w' e
  | attach {surface : ResId} {buffer : Option ResId} {env : SendEnv} (sent : List Signal)
      (eq : w' = { w with surfaces := w'.surfaces, inFlight := w.inFlight ++ sent })
      (ok : sent = [] ∨ ∃ r sig, buffer = some r ∧ w.Sends surface r env ∧ sent = [sig] ∧
        sig.request = w.requests.buffers r ∧ SignalOk sig) :
      StepKind w w' (.attach surface buffer env)
  | deliver {env : MessageEnv} (eq : w' = w.deliver env) : StepKind w w' (.deliver env)
  | draw {env : UploadEnv} (r : RendererState) (drawn : w.renderer.drawCallback env = some r)
      (eq : w' = { w with
        renderer := r
        drawn := if w.renderer.bufferMgr.buffers.dirty then w.received else w.drawn }) :
      StepKind w w' (.draw env)

theorem step_cases {w w' : World} {e : WorldEvent} (h : RequestOk w.requests w.shm)
    (hs : w.step e = some w') : StepKind w w' e := by
  have hself : ∀ {t e}, some w = some t → StepKind w t e := by
    intro t e ht
    obtain rfl := Option.some.inj ht
    exact .server h rfl
  have hshm : ∀ {t : World} {e : ShmEvent}, w.shmStep e = some t →
      RequestOk t.requests t.shm ∧ t = { w with shm := t.shm, requests := t.requests } := by
    intro t e hstep
    simp only [World.shmStep, Option.bind_eq_bind, Option.bind_eq_some_iff] at hstep
    obtain ⟨shm, hshm, hstep⟩ := hstep
    obtain rfl := Option.some.inj hstep
    exact ⟨requestOk_step h hshm, rfl⟩
  have hsurface : ∀ {v t : World} {e : SurfaceEvent}, v.surfaceStep e = some t →
      t = { v with surfaces := t.surfaces } := by
    intro v t e hstep
    simp only [World.surfaceStep, Option.bind_eq_bind, Option.bind_eq_some_iff] at hstep
    obtain ⟨surfaces, _, hstep⟩ := hstep
    obtain rfl := Option.some.inj hstep
    rfl
  cases e with
  | shm e =>
      cases e with
      | disconnect client => exact hself hs
      | createPool | createBuffer | destroyBuffer | destroyPool | resizePool | reap =>
          obtain ⟨hok, heq⟩ := hshm hs
          exact .server hok (by rw [heq])
  | surface e =>
      cases e with
      | disconnect client => exact hself hs
      | attach surface buffer => exact hself hs
      | setDbus | createSurface | destroySurface | getXdgSurface | reap =>
          have heq := hsurface hs
          exact .server (by rw [heq]; exact h) (by rw [heq])
  | disconnect client =>
      -- both halves of the server are told
      simp only [World.step, Option.bind_eq_bind, Option.bind_eq_some_iff] at hs
      obtain ⟨v, hv, hs⟩ := hs
      obtain ⟨hok, hveq⟩ := hshm hv
      have heq := hsurface hs
      exact .server (by rw [heq]; exact hok) (by rw [heq, hveq])
  | attach surface buffer env =>
      obtain ⟨sent, heq, hsent⟩ := attach_cases h hs
      exact .attach sent heq hsent
  | deliver env => exact .deliver (Option.some.inj hs).symm
  | draw env =>
      simp only [World.step, World.draw, Option.bind_eq_bind, Option.bind_eq_some_iff] at hs
      obtain ⟨r, hr, hs⟩ := hs
      exact .draw r hr (Option.some.inj hs).symm

/-! ## What holds in every run -/

structure WorldOk (w : World) : Prop where
  requests : RequestOk w.requests w.shm
  signals : ∀ sig ∈ w.inFlight, SignalOk sig

/-- **What is on its way is what the server makes of a request**, whatever the step. -/
theorem worldOk_step {w w' : World} {e : WorldEvent} (h : WorldOk w) (hs : w.step e = some w') :
    WorldOk w' := by
  cases step_cases h.requests hs with
  | server hok heq => exact ⟨hok, by rw [heq]; exact h.signals⟩
  | attach sent heq hsent =>
      refine ⟨by rw [heq]; exact h.requests, fun sig hsig => ?_⟩
      rw [heq] at hsig
      rcases List.mem_append.mp hsig with hsig | hsig
      · exact h.signals sig hsig
      · rcases hsent with rfl | ⟨_, sig', _, _, rfl, _, hok⟩
        · cases hsig
        · rwa [List.mem_singleton.mp hsig]
  | deliver heq =>
      rcases deliver_cases w _ with hsame | ⟨sig, rest, hin, hdel⟩
      · rw [heq, hsame]; exact h
      · rw [heq, hdel]
        exact ⟨h.requests, fun s hsig => h.signals s (by rw [hin]; exact List.mem_cons_of_mem _ hsig)⟩
  | draw r _ heq => rw [heq]; exact ⟨h.requests, h.signals⟩

theorem worldOk_initial : WorldOk World.initial :=
  ⟨requestOk_initial, fun _ hsig => by cases hsig⟩

/-! ## Runs -/

/-- A signal is faithful when its request survives the way. -/
theorem SignalOk.conveys_iff {sig : Signal} {req : BufferRequest} (h : SignalOk sig)
    (hreq : sig.request = some req) :
    (∃ update, decodeUpdated sig.msg = some update ∧ Conveys req update) ↔ req.SentAsIs := by
  obtain ⟨req', hreq', hacc, hdec⟩ := h
  obtain rfl : req' = req := Option.some.inj (hreq'.symm.trans hreq)
  rw [← DesktopEngine.conveys_iff (some req'.pool.file) hacc]
  constructor
  · intro hx
    obtain ⟨update, hupd, hconv⟩ := hx
    rwa [Option.some.inj (hdec.symm.trans hupd)]
  · intro hconv
    exact ⟨_, hdec, hconv⟩

/-- Only an `attach` puts a signal on its way. -/
theorem inFlight_step {w w' : World} {e : WorldEvent} (h : WorldOk w) (hs : w.step e = some w')
    {sig : Signal} (hsig : sig ∈ w'.inFlight) : sig ∈ w.inFlight ∨
      ∃ surface r env, e = .attach surface (some r) env ∧ w.Sends surface r env ∧
        sig.request = w.requests.buffers r := by
  cases step_cases h.requests hs with
  | server _ heq => left; rwa [heq] at hsig
  | attach sent heq hsent =>
      rw [heq] at hsig
      rcases List.mem_append.mp hsig with hsig | hsig
      · exact Or.inl hsig
      · rcases hsent with rfl | ⟨r, sig', rfl, hsends, rfl, hreq, _⟩
        · cases hsig
        · rw [List.mem_singleton.mp hsig]
          exact Or.inr ⟨_, r, _, rfl, hsends, hreq⟩
  | deliver heq =>
      left
      rcases deliver_cases w _ with hsame | ⟨sig', rest, hin, hdel⟩
      · rwa [heq, hsame] at hsig
      · rw [heq, hdel] at hsig
        rw [hin]
        exact List.mem_cons_of_mem _ hsig
  | draw r _ heq => left; rwa [heq] at hsig

/--
**Signals are faithful in a run exactly when every buffer it sends survives the way**: its stride is
four bytes a pixel and its format is `XRGB8888`.
-/
theorem transport_faithful_iff (events : List WorldEvent) :
    Throughout World.step TransportFaithful World.initial events ↔
      AllSteps World.step SendsAsIs World.initial events := by
  have hkeep : ∀ w e w', WorldOk w ∧ TransportFaithful w → SendsAsIs w e → w.step e = some w' →
      WorldOk w' ∧ TransportFaithful w' := by
    intro w e w' hw hg hs
    have hok := worldOk_step hw.1 hs
    refine ⟨hok, fun sig hsig => ?_⟩
    rcases inFlight_step hw.1 hs hsig with hold | ⟨surface, r, env, rfl, hsends, hreq⟩
    · exact hw.2 sig hold
    · obtain ⟨req, hreq', _⟩ := hok.signals sig hsig
      have hsent := hg hsends req (hreq.symm.trans hreq')
      obtain ⟨update, hdec, hconv⟩ := ((hok.signals sig hsig).conveys_iff hreq').mpr hsent
      exact ⟨req, update, hreq', hdec, hconv⟩
  -- a step that the condition excludes sends a signal that is not faithful
  have hneeded : ∀ w e, WorldOk w ∧ TransportFaithful w → ¬ SendsAsIs w e →
      ∃ w', w.step e = some w' ∧ ¬ TransportFaithful w' := by
    intro w e hw hg
    unfold SendsAsIs at hg
    split at hg
    · rename_i surface r env
      push Not at hg
      obtain ⟨hsends, req, hreq, hnot⟩ := hg
      obtain ⟨w', sig, hs, hmem, hsig⟩ := attach_of_sends hsends
      refine ⟨w', hs, fun hfaith => hnot ?_⟩
      obtain ⟨req', update, hreq', hdec, hconv⟩ := hfaith sig hmem
      obtain rfl : req' = req := Option.some.inj (hreq'.symm.trans (hsig.trans hreq))
      have hok := (worldOk_step (e := .attach surface (some r) env) hw.1 hs).signals sig hmem
      exact (hok.conveys_iff hreq').mp ⟨update, hdec, hconv⟩
    · exact absurd trivial hg
  have hinit : WorldOk World.initial ∧ TransportFaithful World.initial :=
    ⟨worldOk_initial, fun _ hsig => by cases hsig⟩
  exact throughout_iff (fun _ h => h.2) hkeep hneeded hinit

/-- An `ARGB8888` buffer, attached. -/
def attachArgb : List WorldEvent :=
  [.surface (.setDbus (some ⟨true⟩)), .shm (.createPool 0 5 ⟨0, 4096⟩ 4096 ⟨true, true, true⟩),
    .shm (.createBuffer 0 2 0 16 16 64 wlShmFormatArgb8888 ⟨true, true⟩),
    .surface (.createSurface 0 ⟨true, true⟩), .attach 0 (some 1) ⟨true, true⟩]

/-- The format of each request on its way, and the one the renderer will decode. -/
def formatsInFlight (w : World) : List (Option UInt32 × Option UInt32) :=
  w.inFlight.map fun sig =>
    (sig.request.map BufferRequest.format, (decodeUpdated sig.msg).map BufferUpdate.format)

theorem transport_attachArgb :
    ¬ Throughout World.step TransportFaithful World.initial attachArgb := by
  have hrun : (exec World.step World.initial attachArgb).map formatsInFlight =
      some [(some wlShmFormatArgb8888, some wlShmFormatXrgb8888)] := by decide
  intro h
  obtain ⟨w, hw, hformats⟩ := Option.map_eq_some_iff.mp hrun
  obtain ⟨sig, hin, hsig⟩ := List.map_eq_singleton_iff.mp hformats
  obtain ⟨req, update, hreq, hdec, hconv⟩ := h.last hw sig (by rw [hin]; exact List.mem_cons_self)
  rw [hreq, hdec] at hsig
  have hne : wlShmFormatXrgb8888 = wlShmFormatArgb8888 := by
    rw [← Option.some.inj (congrArg Prod.fst hsig), ← Option.some.inj (congrArg Prod.snd hsig)]
    exact hconv.format
  exact absurd hne (by decide)

end DesktopEngine
