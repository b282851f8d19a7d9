import DesktopEngine.Dbus.Dispatch

/-!
# Which calls are dispatched as they should be

The search gets as far as the first module that offers a handler (`search_reaches`). If that handler
does not decline, the call is over and nothing went wrong. If it declines, the dispatcher is caught:
every further handler it calls is the same one (`Caught`), so the call either never returns or has
called that handler twice. Hence the condition of `dispatchSound_iff`, in which
the error, where nobody has a handler, can also fail to be made.
-/

namespace DesktopEngine.Dbus

section

variable {reg : Registry} {call : MethodCall} {ret : Nat → Handler → DBusHandlerResult}
  {created : Bool}

theorem offered_cons_some {p : Ptr} {module : DBusModule} {rest : List (Ptr × DBusModule)}
    {handler : Handler} (h : handlerFor call module = some handler) :
    offered call ((p, module) :: rest) = (p, handler) :: offered call rest := by
  simp [offered, h]

theorem offered_cons_none {p : Ptr} {module : DBusModule} {rest : List (Ptr × DBusModule)}
    (h : handlerFor call module = none) :
    offered call ((p, module) :: rest) = offered call rest := by
  simp [offered, h]

/-- The modules that have a handler for the call, in list order. -/
theorem offered_sublist (nodes : List (Ptr × DBusModule)) :
    ((offered call nodes).map Prod.fst).Sublist (nodes.map Prod.fst) := by
  have heq : (offered call nodes).map Prod.fst =
      (nodes.filter fun node => (handlerFor call node.2).isSome).map Prod.fst := by
    induction nodes with
    | nil => rfl
    | cons node nodes ih =>
        unfold offered at ih
        cases hh : handlerFor call node.2 <;> simp [offered, hh, ih]
  rw [heq]
  exact List.filter_sublist.map _

/-- The module of an offered handler, in the registry. -/
theorem exists_module_of_offered {m : Ptr} {h : Handler}
    (hoff : (m, h) ∈ offered call reg.nodes) :
    ∃ pre module rest, reg.nodes = pre ++ (m, module) :: rest ∧
      handlerFor call module = some h := by
  obtain ⟨⟨p, module⟩, hmem, hp⟩ := List.mem_filterMap.mp hoff
  obtain ⟨g, hg, he⟩ := Option.map_eq_some_iff.mp hp
  obtain ⟨rfl, rfl⟩ := Prod.mk.inj he
  obtain ⟨pre, rest, hsplit⟩ := List.append_of_mem hmem
  exact ⟨pre, module, rest, hsplit, hg⟩

variable (call ret created) in
/-- One turn of the search, at a registered module. -/
theorem search_step {pre rest : List (Ptr × DBusModule)} {p : Ptr} {module : DBusModule}
    (hnodes : reg.nodes = pre ++ (p, module) :: rest) (calls : List (Ptr × Handler)) (e : Bool) :
    handleMethodCallStep reg call ret created ⟨.search (some p), calls, e⟩ =
      ⟨(handlerFor call module).elim (.search (headPtr rest)) (.unlockToCall p), calls, e⟩ := by
  have hp : p ∉ pre.map Prod.fst := by
    have hnd := reg.nodup
    rw [hnodes, List.map_append, List.map_cons, List.nodup_middle, List.nodup_cons] at hnd
    exact fun hm => hnd.1 (List.mem_append_left _ hm)
  have hfind := findHandler_mid rest module hp call
  have hnext := moduleNext_mid rest module hp
  rw [← hnodes] at hfind hnext
  cases hh : handlerFor call module <;>
    simp [handleMethodCallStep, MethodCallPc.next, hfind, hnext, hh]

variable (reg call ret created) in
/-- **The search finds the first module that offers a handler**, or the end of the list. -/
theorem search_reaches (calls : List (Ptr × Handler)) (e : Bool) (rest : List (Ptr × DBusModule)) :
    ∀ pre, reg.nodes = pre ++ rest →
      ∃ n, (handleMethodCallStep reg call ret created)^[n] ⟨.search (headPtr rest), calls, e⟩ =
        ⟨(offered call rest).head?.elim (.unlock .notYetHandled) fun x => .unlockToCall x.1 x.2,
          calls, e⟩ := by
  induction rest with
  | nil => exact fun _ _ => ⟨1, rfl⟩
  | cons node rest ih =>
      obtain ⟨p, module⟩ := node
      intro pre hnodes
      have hstep := search_step call ret created hnodes calls e
      cases hh : handlerFor call module with
      | some handler =>
          refine ⟨1, ?_⟩
          rw [offered_cons_some hh]
          simpa [hh, headPtr] using hstep
      | none =>
          obtain ⟨n, hn⟩ := ih (pre ++ [(p, module)]) (by simpa using hnodes)
          refine ⟨n + 1, ?_⟩
          rw [offered_cons_none hh, Function.iterate_succ_apply, ← hn]
          simp only [headPtr, List.head?_cons, Option.map_some]
          rw [hstep, hh]
          rfl

variable (reg call ret created) in
/-- From the entry to the first handler, or past the loop. -/
theorem lock_reaches :
    ∃ n, (handleMethodCallStep reg call ret created)^[n] .initial =
      ⟨(offered call reg.nodes).head?.elim (.unlock .notYetHandled) fun x => .unlockToCall x.1 x.2,
        [], false⟩ := by
  obtain ⟨n, hn⟩ := search_reaches reg call ret created [] false reg.nodes []
    rfl
  exact ⟨n + 1, by rw [Function.iterate_succ_apply]; exact hn⟩

variable (ret created) in
/-- Nobody has a handler: the call ends with the error, if it can be made. -/
theorem unknown_reaches (hoff : offered call reg.nodes = []) :
    ∃ n, (handleMethodCallStep reg call ret created)^[n] .initial = ⟨.done, [], created⟩ := by
  obtain ⟨n, hn⟩ := lock_reaches reg call ret created
  rw [hoff] at hn
  refine ⟨n + 2, ?_⟩
  rw [Nat.add_comm, Function.iterate_add_apply, hn]
  simp [handleMethodCallStep, MethodCallPc.next]

variable (created) in
/-- The first handler answers: the call ends without another. -/
theorem answered_reaches {m : Ptr} {h : Handler}
    (hoff : (offered call reg.nodes).head? = some (m, h)) (hret : ret 0 h ≠ .notYetHandled) :
    ∃ n, (handleMethodCallStep reg call ret created)^[n] .initial =
      ⟨.done, [(m, h)], false⟩ := by
  obtain ⟨n, hn⟩ := lock_reaches reg call ret created
  rw [hoff] at hn
  refine ⟨n + 4, ?_⟩
  rw [Nat.add_comm, Function.iterate_add_apply, hn]
  simp [handleMethodCallStep, MethodCallPc.next, hret]

/-! ## A handler that declines -/

/--
The first handler has been found and declines. `k` is how often it has been called; as long as that
is not twice, the call cannot be over.
-/
def Caught (reg : Registry) (call : MethodCall) (m : Ptr) (h : Handler) (s : DispatchState) : Prop :=
  ∃ k, s.calls = List.replicate k (m, h) ∧
    match s.pc with
    | .lock => k = 0
    | .search p => (k = 0 ∧ ∃ pre rest, reg.nodes = pre ++ rest ∧ p = headPtr rest ∧
        (offered call rest).head? = some (m, h)) ∨ p = some m
    | .unlockToCall p g => (p, g) = (m, h)
    | .call p g => (p, g) = (m, h)
    | .relock p => p = m
    | .unlock _ => 2 ≤ k
    | .reply _ => 2 ≤ k
    | .done => 2 ≤ k

theorem caught_step {m : Ptr} {h : Handler}
    (hoff : (offered call reg.nodes).head? = some (m, h)) (hret : ret 0 h = .notYetHandled)
    {s : DispatchState} (hs : Caught reg call m h s) :
    Caught reg call m h (handleMethodCallStep reg call ret created s) := by
  -- the handler that the module of the first handler offers is that handler
  have hown := exists_module_of_offered (List.mem_of_mem_head? hoff)
  obtain ⟨pc, calls, e⟩ := s
  obtain ⟨k, hcalls, hpc⟩ := hs
  obtain rfl : calls = List.replicate k (m, h) := hcalls
  cases pc with
  | lock => exact ⟨k, rfl, Or.inl ⟨hpc, [], reg.nodes, rfl, rfl, hoff⟩⟩
  | search p =>
      -- the search has not come to the handler yet, or it stands at its module again
      rcases hpc with ⟨rfl, pre, rest, hnodes, rfl, hhead⟩ | rfl
      · cases rest with
        | nil => cases hhead
        | cons node rest =>
            obtain ⟨p, module⟩ := node
            have hstep := search_step call ret created hnodes [] e
            simp only [headPtr, List.head?_cons, Option.map_some, List.replicate_zero]
            rw [hstep]
            cases hh : handlerFor call module with
            | some g =>
                rw [offered_cons_some hh] at hhead
                exact ⟨0, rfl, Option.some.inj hhead⟩
            | none =>
                rw [offered_cons_none hh] at hhead
                exact ⟨0, rfl, Or.inl ⟨rfl, pre ++ [(p, module)], rest, by simp [hnodes], rfl,
                  hhead⟩⟩
      · obtain ⟨pre, module, rest, hnodes, hh⟩ := hown
        rw [search_step call ret created hnodes, hh]
        exact ⟨k, rfl, rfl⟩
  | unlockToCall p g => exact ⟨k, rfl, hpc⟩
  | call p g =>
      obtain ⟨rfl, rfl⟩ := Prod.mk.inj hpc
      refine ⟨k + 1, by simp [handleMethodCallStep, List.replicate_succ'], ?_⟩
      by_cases hr : ret k g = .notYetHandled
      · simp [handleMethodCallStep, MethodCallPc.next, hr]
      · -- it declined the first time, so this is a later call
        have hk : k ≠ 0 := by rintro rfl; exact hr hret
        simp only [handleMethodCallStep, MethodCallPc.next, List.length_replicate, hr, if_false]
        omega
  | relock p => exact ⟨k, rfl, Or.inr (congrArg some hpc)⟩
  | unlock r => exact ⟨k, rfl, hpc⟩
  | reply r => exact ⟨k, rfl, hpc⟩
  | done => exact ⟨k, rfl, hpc⟩

/-- **A declining first handler is never passed.** -/
theorem not_dispatchSound {m : Ptr} {h : Handler}
    (hoff : (offered call reg.nodes).head? = some (m, h)) (hret : ret 0 h = .notYetHandled) :
    ¬ DispatchSound reg call ret created := by
  intro hx
  obtain ⟨n, hdone, hcalls, _⟩ := hx
  have hall : ∀ n, Caught reg call m h ((handleMethodCallStep reg call ret created)^[n] .initial) := by
    intro n
    induction n with
    | zero => exact ⟨0, rfl, rfl⟩
    | succ n ih => rw [Function.iterate_succ_apply']; exact caught_step hoff hret ih
  obtain ⟨k, hk, hpc⟩ := hall n
  rw [hdone] at hpc
  obtain ⟨k, rfl⟩ : ∃ j, k = j + 2 := ⟨k - 2, (Nat.sub_add_cancel hpc).symm⟩
  rw [hk] at hcalls
  -- the second expected call is to another module
  cases hl : offered call reg.nodes with
  | nil => rw [hl] at hoff; cases hoff
  | cons x rest =>
      rw [hl] at hoff hcalls
      obtain rfl : x = (m, h) := Option.some.inj hoff
      have hnd : (((m, h) :: rest).map Prod.fst).Nodup := by
        rw [← hl]
        exact reg.nodup.sublist (offered_sublist reg.nodes)
      have hsecond : (m, h) ∈ rest := by
        rw [expectedCalls, if_pos hret] at hcalls
        cases rest with
        | nil => cases hcalls
        | cons y rest =>
            have : y = (m, h) := by
              obtain ⟨p, g⟩ := y
              exact (List.cons.inj (List.cons.inj hcalls).2).1.symm
            exact this ▸ List.mem_cons_self
      rw [List.map_cons, List.nodup_cons] at hnd
      exact hnd.1 (List.mem_map.mpr ⟨_, hsecond, rfl⟩)

/-! ## The condition -/

/-- An error that is sent was made. -/
theorem created_of_errorSent (n : Nat)
    (h : ((handleMethodCallStep reg call ret created)^[n] .initial).errorSent = true) :
    created = true := by
  induction n with
  | zero => cases h
  | succ n ih =>
      rw [Function.iterate_succ_apply'] at h
      generalize (handleMethodCallStep reg call ret created)^[n] .initial = s at h ih
      obtain ⟨pc, calls, e⟩ := s
      cases pc with
      | reply result => exact (Bool.and_eq_true_iff.mp h).2
      | _ => exact ih h

/--
**A call is dispatched as it should be exactly when the first handler found does not decline**, and,
where there is none, the error can be made.
-/
theorem dispatchSound_iff (reg : Registry) (call : MethodCall)
    (ret : Nat → Handler → DBusHandlerResult) (created : Bool) :
    DispatchSound reg call ret created ↔
      (∀ x ∈ (offered call reg.nodes).head?, ret 0 x.2 ≠ .notYetHandled) ∧
        (offered call reg.nodes = [] → created = true) := by
  constructor
  · intro h
    refine ⟨fun x hx hret => not_dispatchSound hx hret h, fun hnone => ?_⟩
    obtain ⟨n, -, -, herror⟩ := h
    rw [hnone] at herror
    exact created_of_errorSent n (herror.mpr rfl)
  · rintro ⟨hcond, hmade⟩
    cases hl : offered call reg.nodes with
    | nil =>
        obtain ⟨n, hn⟩ := unknown_reaches ret created hl
        refine ⟨n, ?_⟩
        rw [hn, hl]
        simp [expectedCalls, answered, hmade hl]
    | cons x rest =>
        obtain ⟨m, h⟩ := x
        rw [hl] at hcond
        have hret : ret 0 h ≠ .notYetHandled := hcond (m, h) rfl
        obtain ⟨n, hn⟩ := answered_reaches created
          (hl ▸ rfl : (offered call reg.nodes).head? = some (m, h)) hret
        refine ⟨n, ?_⟩
        rw [hn, hl]
        simp [expectedCalls, answered, hret]

/-! ## When a call returns -/

/-- The thread has not left the loop. -/
def MethodCallPc.inLoop : MethodCallPc → Bool
  | .unlock _ | .reply _ | .done => false
  | _ => true

/-- A handler that declines every time keeps the thread in the loop. -/
theorem caught_inLoop {m : Ptr} {h : Handler} (hret : ∀ k, ret k h = .notYetHandled)
    {s : DispatchState} (hs : Caught reg call m h s) (hin : s.pc.inLoop = true) :
    (handleMethodCallStep reg call ret created s).pc.inLoop = true := by
  obtain ⟨pc, calls, e⟩ := s
  obtain ⟨k, hcalls, hpc⟩ := hs
  obtain rfl : calls = List.replicate k (m, h) := hcalls
  cases pc with
  | search cursor =>
      cases cursor with
      | none =>
          -- the end of the list is not reached before the handler
          rcases hpc with ⟨-, pre, rest, -, hend, hhead⟩ | hend
          · cases rest with
            | nil => cases hhead
            | cons node rest => cases hend
          · cases hend
      | some q =>
          simp only [handleMethodCallStep, MethodCallPc.next]
          cases findHandler reg.nodes call q <;> rfl
  | call q g =>
      obtain ⟨rfl, rfl⟩ := Prod.mk.inj hpc
      simp [handleMethodCallStep, MethodCallPc.next, hret k, MethodCallPc.inLoop]
  | unlock r => cases hin
  | reply r => cases hin
  | done => cases hin
  | _ => rfl

/-- Once around the loop: the handler is called, declines, and is found again. -/
theorem declined_reaches {m : Ptr} {h : Handler} {module : DBusModule}
    {pre rest : List (Ptr × DBusModule)} (hnodes : reg.nodes = pre ++ (m, module) :: rest)
    (hmodule : handlerFor call module = some h) {calls : List (Ptr × Handler)} {e : Bool}
    (hret : ret calls.length h = .notYetHandled) :
    (handleMethodCallStep reg call ret created)^[4] ⟨.unlockToCall m h, calls, e⟩ =
      ⟨.unlockToCall m h, calls ++ [(m, h)], e⟩ := by
  have hfound := search_step call ret created hnodes (calls ++ [(m, h)]) e
  rw [hmodule] at hfound
  rw [Function.iterate_succ_apply', show (handleMethodCallStep reg call ret created)^[3]
    ⟨.unlockToCall m h, calls, e⟩ = ⟨.search (some m), calls ++ [(m, h)], e⟩ by
      simp [handleMethodCallStep, MethodCallPc.next, hret]]
  exact hfound

variable (created) in
/-- A handler that will answer some time lets the call return: the number of times that it still
declines goes down with every turn. -/
theorem answering_returns {m : Ptr} {h : Handler} {module : DBusModule}
    {pre rest : List (Ptr × DBusModule)} (hnodes : reg.nodes = pre ++ (m, module) :: rest)
    (hmodule : handlerFor call module = some h) (left : Nat) (calls : List (Ptr × Handler))
    (hret : ret (calls.length + left) h ≠ .notYetHandled) :
    ∃ n, ((handleMethodCallStep reg call ret created)^[n]
      ⟨.unlockToCall m h, calls, false⟩).pc = .done := by
  induction left generalizing calls with
  | zero =>
      rw [Nat.add_zero] at hret
      refine ⟨4, ?_⟩
      simp [handleMethodCallStep, MethodCallPc.next, hret]
  | succ left ih =>
      by_cases hnow : ret calls.length h = .notYetHandled
      · have hlen : (calls ++ [(m, h)]).length + left = calls.length + (left + 1) := by
          rw [List.length_append, List.length_singleton]
          omega
        obtain ⟨n, hn⟩ := ih (calls ++ [(m, h)]) (hlen ▸ hret)
        refine ⟨n + 4, ?_⟩
        rw [Function.iterate_add_apply, declined_reaches hnodes hmodule hnow]
        exact hn
      · refine ⟨4, ?_⟩
        simp [handleMethodCallStep, MethodCallPc.next, hnow]

/-- **A call returns exactly when the first handler found answers some time.** -/
theorem returns_iff (reg : Registry) (call : MethodCall)
    (ret : Nat → Handler → DBusHandlerResult) (created : Bool) :
    (∃ n, ((handleMethodCallStep reg call ret created)^[n] .initial).pc = .done) ↔
      ∀ x ∈ (offered call reg.nodes).head?, ∃ k, ret k x.2 ≠ .notYetHandled := by
  constructor
  · rintro ⟨n, hn⟩ ⟨m, h⟩ hx
    by_contra hall
    have hret : ∀ k, ret k h = .notYetHandled := by
      simpa using hall
    have hstay : ∀ n, Caught reg call m h
          ((handleMethodCallStep reg call ret created)^[n] .initial) ∧
        ((handleMethodCallStep reg call ret created)^[n] .initial).pc.inLoop = true := by
      intro n
      induction n with
      | zero => exact ⟨⟨0, rfl, rfl⟩, rfl⟩
      | succ n ih =>
          rw [Function.iterate_succ_apply']
          exact ⟨caught_step hx (hret 0) ih.1, caught_inLoop hret ih.1 ih.2⟩
    have hin := (hstay n).2
    rw [hn] at hin
    cases hin
  · intro hcond
    cases hl : offered call reg.nodes with
    | nil =>
        obtain ⟨n, hn⟩ := unknown_reaches ret created hl
        exact ⟨n, by rw [hn]⟩
    | cons x others =>
        obtain ⟨m, h⟩ := x
        obtain ⟨n, hn⟩ := lock_reaches reg call ret created
        rw [hl] at hn hcond
        obtain ⟨k, hk⟩ := hcond (m, h) rfl
        obtain ⟨pre, module, rest, hnodes, hmodule⟩ :=
          exists_module_of_offered (hl ▸ List.mem_cons_self : (m, h) ∈ offered call reg.nodes)
        obtain ⟨turns, hdone⟩ := answering_returns created hnodes hmodule k []
          (by rwa [List.length_nil, Nat.zero_add])
        refine ⟨turns + n, ?_⟩
        rw [Function.iterate_add_apply, hn]
        exact hdone

/-- A single module, whose only handler declines. -/
def decliningRegistry : Registry :=
  .singleton 0 ⟨"m", [⟨"i", [⟨"f", none, none, some 0⟩], some "/o"⟩]⟩

/-- The dispatcher does not get past a handler that always declines. -/
theorem dispatch_declined :
    ¬ DispatchSound decliningRegistry ⟨some "i", some "f", some "/o"⟩
      (fun _ _ => .notYetHandled) true :=
  not_dispatchSound (m := 0) (h := 0) (by decide) rfl

end

end DesktopEngine.Dbus
