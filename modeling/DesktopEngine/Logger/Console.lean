import DesktopEngine.Logger.Account
import DesktopEngine.Logger.Text

/-!
# The console, printed in pieces

`write_to_file` prints a line with one `fprintf`. `write_to_console` prints it with up to four calls
of `printf`: the color, the line without its end, the end of the color, and the newline. Each call
locks the stream, but nothing locks all of them, so an agent can get in between the pieces of
another.

The machine of `logger.c` is taken again, with a step for each `printf` (`exec_logger`). The console
shows whole lines exactly when no agent prints while another is in the middle of its line
(`console_whole_iff`).
-/

namespace DesktopEngine.Logger

open CString Run LoggerState

/-! ## The pieces -/

/-- `level_to_color`, on the number of the enumerator; the result is a `log_color_t`. -/
def levelToColor : Nat → Nat
  | 0 => 36
  | 1 => 32
  | 2 => 33
  | 3 => 31
  | 4 => 91
  | _ => 37

/-- A call of `printf`. -/
inductive Piece where
  | color
  | text
  | reset
  | newline
  deriving DecidableEq, Repr

def Piece.bytes (localtime : Nat → Tm) (m : LogMessage) : Piece → List UInt8
  | .color => 27 :: ascii "[1;" ++ digits (levelToColor m.level.toNat) ++ ascii "m"
  | .text => (m.entry localtime).line
  | .reset => 27 :: ascii "[0m"
  | .newline => [CString.newline]

/-- The calls of `write_to_console`, where the console is asked for. -/
def writeToConsole (useColors : Bool) : List Piece :=
  if useColors then [.color, .text, .reset, .newline] else [.text, .newline]

/-! ## The machine -/

structure ConsoleState (n : Nat) where
  logger : LoggerState n
  /-- How many pieces an agent has printed of the message it is at. -/
  printed : Agent n → Nat
  /-- What was printed, by whom, and for which message. -/
  stream : List (Agent n × Logged × Piece)

namespace ConsoleState

variable {n : Nat} (useColors : Bool) (s : ConsoleState n)

def initial (config : LoggerConfig) (fopen create : Bool) : ConsoleState n :=
  ⟨loggerInit n config fopen create, fun _ => 0, []⟩

/-- The message that the action is to print a piece of. -/
def printing : LoggerAct n → Option (Agent n × Logged)
  | .run a =>
      match s.logger.pcs a with
      | .console m =>
          if s.logger.config.logToConsole ∧ s.logger.exited = false then some (a, m) else none
      | _ => none
  | _ => none

/-- The next `printf`; behind the last one the agent goes on. -/
def print (a : Agent n) (m : Logged) : Option (ConsoleState n) :=
  match (writeToConsole useColors).drop (s.printed a) with
  | [] => none
  | [piece] =>
      (s.logger.run a).map fun logger =>
        ⟨logger, Function.update s.printed a 0, s.stream ++ [(a, m, piece)]⟩
  | piece :: _ =>
      some { s with
        printed := Function.update s.printed a (s.printed a + 1)
        stream := s.stream ++ [(a, m, piece)] }

def step (act : LoggerAct n) : Option (ConsoleState n) :=
  match s.printing act with
  | some (a, m) => s.print useColors a m
  | none => (s.logger.step act).map fun logger => { s with logger := logger }

/-- The bytes on the console. -/
def text (localtime : Nat → Tm) : List UInt8 :=
  s.stream.flatMap fun e => e.2.2.bytes localtime e.2.1.message

/-! ## What is to be shown -/

/-- The pieces of a line, as the stream has them. -/
def line (e : Agent n × Logged) : List (Agent n × Logged × Piece) :=
  (writeToConsole useColors).map fun piece => (e.1, e.2, piece)

/-- The console shows the lines that were written, and the beginning of at most one more. -/
def Whole : Prop :=
  ∃ rest, s.stream = s.logger.console.flatMap (line useColors) ++ rest ∧
    (rest = [] ∨ ∃ e, rest <+: line useColors e)

/-- An agent that prints does not do so while another is in the middle of a line. -/
def Alone (act : LoggerAct n) : Prop :=
  ∀ a m, s.printing act = some (a, m) → ∀ b, b ≠ a → s.printed b = 0

end ConsoleState

open ConsoleState

variable {n : Nat} {useColors : Bool} {s s' : ConsoleState n}

/-! ## A step -/

theorem printing_eq_some {act : LoggerAct n} {a : Agent n} {m : Logged}
    (h : s.printing act = some (a, m)) : act = .run a ∧ s.logger.pcs a = .console m ∧
      s.logger.config.logToConsole = true ∧ s.logger.exited = false := by
  cases act with
  | run b =>
      cases hpc : s.logger.pcs b with
      | console m' =>
          simp only [printing, hpc] at h
          split_ifs at h with hc
          obtain ⟨rfl, rfl⟩ := Prod.mk.inj (Option.some.inj h)
          exact ⟨rfl, hpc, hc⟩
      | _ => simp [printing, hpc] at h
  | _ => cases h

theorem printing_of_console {a : Agent n} {m : Logged} (hpc : s.logger.pcs a = .console m)
    (hc : s.logger.config.logToConsole = true) (hx : s.logger.exited = false) :
    s.printing (.run a) = some (a, m) := by
  simp [printing, hpc, hc, hx]

/-- The last piece of a line is where the logger's own step is taken. -/
theorem run_console {l : LoggerState n} {a : Agent n} {m : Logged} (hpc : l.pcs a = .console m)
    (hc : l.config.logToConsole = true) :
    l.run a = some { l.moveTo a (.file m) with console := l.console ++ [(a, m)] } := by
  simp [LoggerState.run, hpc, hc]

inductive PrintStep (useColors : Bool) (s : ConsoleState n) (a : Agent n) (m : Logged) :
    ConsoleState n → Prop where
  /-- A piece with others behind it. -/
  | piece (piece : Piece) (next : (writeToConsole useColors)[s.printed a]? = some piece)
      (more : s.printed a + 1 < (writeToConsole useColors).length) :
      PrintStep useColors s a m
        { s with
          printed := Function.update s.printed a (s.printed a + 1)
          stream := s.stream ++ [(a, m, piece)] }
  /-- The last one. -/
  | last (piece : Piece) (next : (writeToConsole useColors)[s.printed a]? = some piece)
      (last : s.printed a + 1 = (writeToConsole useColors).length) :
      PrintStep useColors s a m
        ⟨{ s.logger.moveTo a (.file m) with console := s.logger.console ++ [(a, m)] },
          Function.update s.printed a 0, s.stream ++ [(a, m, piece)]⟩

theorem print_cases {a : Agent n} {m : Logged} (hpc : s.logger.pcs a = .console m)
    (hc : s.logger.config.logToConsole = true) (h : s.print useColors a m = some s') :
    PrintStep useColors s a m s' := by
  have hnext : ((writeToConsole useColors).drop (s.printed a))[0]? =
      (writeToConsole useColors)[s.printed a]? := by rw [List.getElem?_drop, Nat.add_zero]
  have hlen : ((writeToConsole useColors).drop (s.printed a)).length =
      (writeToConsole useColors).length - s.printed a := List.length_drop
  -- whether one piece is left or more
  unfold print at h
  split at h
  · cases h
  · rename_i piece hdrop
    rw [hdrop] at hnext hlen
    rw [run_console hpc hc] at h
    obtain rfl := Option.some.inj h
    exact .last piece hnext.symm (by simp only [List.length_singleton] at hlen; omega)
  · rename_i piece rest hne hdrop
    rw [hdrop] at hnext hlen
    obtain rfl := Option.some.inj h
    refine .piece piece hnext.symm ?_
    cases rest with
    | nil => exact (hne rfl).elim
    | cons piece' rest =>
        simp only [List.length_cons] at hlen
        omega

/-! ## The logger underneath -/

/-- **The pieces are a refinement of the one step they replace.** -/
theorem step_logger {act : LoggerAct n} (h : s.step useColors act = some s') :
    s'.logger = s.logger ∨ s.logger.step act = some s'.logger := by
  unfold ConsoleState.step at h
  cases hp : s.printing act with
  | none =>
      rw [hp] at h
      obtain ⟨l, hl, rfl⟩ := Option.map_eq_some_iff.mp h
      exact Or.inr hl
  | some e =>
      obtain ⟨a, m⟩ := e
      rw [hp] at h
      obtain ⟨rfl, hpc, hc, hx⟩ := printing_eq_some hp
      cases print_cases hpc hc h with
      | piece => exact Or.inl rfl
      | last =>
          right
          simp [LoggerState.step, hx, run_console hpc hc]

/-- A run with pieces is a run of the logger, with the steps that only print left out. -/
theorem exec_logger {acts : List (LoggerAct n)} (h : exec (step useColors) s acts = some s') :
    ∃ acts', acts'.Sublist acts ∧ exec LoggerState.step s.logger acts' = some s'.logger := by
  -- on the steps: one that only prints is left out
  induction acts generalizing s with
  | nil =>
      obtain rfl := Option.some.inj h
      exact ⟨[], List.Sublist.refl _, rfl⟩
  | cons act acts ih =>
      obtain ⟨t, ht, hrest⟩ := exec_cons_eq_some.mp h
      obtain ⟨acts', hsub, hacts'⟩ := ih hrest
      rcases step_logger ht with hsame | hstep
      · rw [hsame] at hacts'
        exact ⟨acts', hsub.cons act, hacts'⟩
      · exact ⟨act :: acts', hsub.cons_cons act, exec_cons_eq_some.mpr ⟨_, hstep, hacts'⟩⟩

/-! ## While the lines are whole -/

/-- What is on the stream, and who is in the middle of a line. -/
structure ConsoleInv (useColors : Bool) (s : ConsoleState n) : Prop where
  /-- An agent in the middle of a line is at its message. -/
  middle : ∀ a, 0 < s.printed a → s.logger.config.logToConsole = true ∧
    ∃ m, s.logger.pcs a = .console m
  single : ∀ a b, 0 < s.printed a → 0 < s.printed b → a = b
  stream : ∃ rest, s.stream = s.logger.console.flatMap (line useColors) ++ rest ∧
    (((∀ a, s.printed a = 0) ∧ rest = []) ∨ ∃ a m, s.logger.pcs a = .console m ∧
      0 < s.printed a ∧ rest = (line useColors (a, m)).take (s.printed a))

theorem ConsoleInv.whole (h : ConsoleInv useColors s) : Whole useColors s := by
  obtain ⟨rest, hstream, ⟨-, rfl⟩ | ⟨a, m, -, -, rfl⟩⟩ := h.stream
  · exact ⟨[], hstream, Or.inl rfl⟩
  · exact ⟨_, hstream, Or.inr ⟨(a, m), List.take_prefix _ _⟩⟩

theorem consoleInv_initial (config : LoggerConfig) (fopen create : Bool) :
    ConsoleInv useColors (initial (n := n) config fopen create) where
  middle _ h := absurd h (Nat.lt_irrefl 0)
  single _ _ h := absurd h (Nat.lt_irrefl 0)
  stream := ⟨[], rfl, Or.inl ⟨fun _ => rfl, rfl⟩⟩

/-- A step that prints nothing leaves the console, and every agent that is at it. -/
theorem step_console {act : LoggerAct n} {l : LoggerState n} (hp : s.printing act = none)
    (h : s.logger.step act = some l) :
    l.console = s.logger.console ∧ l.config = s.logger.config ∧
      ∀ a m, s.logger.pcs a = .console m → s.logger.config.logToConsole = true →
        l.pcs a = .console m := by
  obtain ⟨hx, happens⟩ := LoggerState.step_cases h
  cases happens with
  | @log t message idle =>
      refine ⟨rfl, rfl, fun a m hpc _ => ?_⟩
      have hne : a ≠ .thread t := by
        rintro rfl
        rw [idle] at hpc
        cases hpc
      exact (Function.update_of_ne hne _ _).trans hpc
  | @cleanup t idle =>
      refine ⟨rfl, rfl, fun a m hpc _ => ?_⟩
      have hne : a ≠ .thread t := by
        rintro rfl
        rw [idle] at hpc
        cases hpc
      exact (Function.update_of_ne hne _ _).trans hpc
  | signal => exact ⟨rfl, rfl, fun a m hpc _ => hpc⟩
  | @run b l ran =>
      obtain ⟨hframe, heffect⟩ := run_spec ran
      -- a step that prints nothing is not that of an agent at its console
      have hnot : ∀ m, s.logger.pcs b = .console m → ¬ s.logger.config.logToConsole = true := by
        intro m hpc hc
        rw [printing_of_console hpc hc hx] at hp
        cases hp
      refine ⟨?_, hframe.config, fun a m hpc hc => ?_⟩
      · cases heffect with
        | quiet _ _ _ _ _ _ hwritten => exact hwritten .console
        | drop _ _ _ _ _ hwritten => exact hwritten .console
        | accept _ _ _ _ _ hwritten => exact hwritten .console
        | take _ _ _ _ hwritten => exact hwritten .console
        | write k m hpc _ _ hwritten =>
            have hw : l.console = s.logger.console ++ if .console = k ∧ s.logger.writes .console
                then [(b, m)] else [] := hwritten .console
            rw [hw, if_neg, List.append_nil]
            rintro ⟨rfl, hc⟩
            exact hnot m hpc hc
      · have hne : a ≠ b := by
          rintro rfl
          exact hnot m hpc hc
        rw [heffect.others hne]
        exact hpc

theorem length_line (e : Agent n × Logged) :
    (line useColors e).length = (writeToConsole useColors).length := List.length_map _

theorem length_writeToConsole (useColors : Bool) : 1 < (writeToConsole useColors).length := by
  cases useColors <;> decide

/-- One more piece of a line. -/
theorem take_line {a : Agent n} {m : Logged} {k : Nat} {piece : Piece}
    (h : (writeToConsole useColors)[k]? = some piece) :
    (line useColors (a, m)).take (k + 1) = (line useColors (a, m)).take k ++ [(a, m, piece)] := by
  have hnext : (line useColors (a, m))[k]? = some (a, m, piece) := by
    rw [line, List.getElem?_map, h]
    rfl
  rw [List.take_add_one, hnext]
  rfl

/-- What is on the stream behind the whole lines is the beginning of the line of who prints next. -/
theorem ConsoleInv.stream_of_alone {a : Agent n} {m : Logged} (h : ConsoleInv useColors s)
    (hpc : s.logger.pcs a = .console m) (halone : ∀ b, b ≠ a → s.printed b = 0) :
    s.stream = s.logger.console.flatMap (line useColors) ++
      (line useColors (a, m)).take (s.printed a) := by
  obtain ⟨rest, hstream, ⟨hnone, rfl⟩ | ⟨b, m', hpc', hpos, rfl⟩⟩ := h.stream
  · rw [hstream, hnone a]
    rfl
  · have hb : b = a := by
      by_contra hne
      rw [halone b hne] at hpos
      exact Nat.lt_irrefl 0 hpos
    subst hb
    rw [hpc] at hpc'
    rw [hstream, Pc.console.inj hpc']

theorem consoleInv_step {act : LoggerAct n} (h : ConsoleInv useColors s) (hg : Alone s act)
    (hs : s.step useColors act = some s') : ConsoleInv useColors s' := by
  unfold ConsoleState.step at hs
  cases hp : s.printing act with
  | none =>
      rw [hp] at hs
      obtain ⟨l, hl, rfl⟩ := Option.map_eq_some_iff.mp hs
      obtain ⟨hconsole, hconfig, hpcs⟩ := step_console hp hl
      refine ⟨fun a ha => ?_, h.single, ?_⟩
      · obtain ⟨hc, m, hpc⟩ := h.middle a ha
        exact ⟨hconfig ▸ hc, m, hpcs a m hpc hc⟩
      · obtain ⟨rest, hstream, hrest⟩ := h.stream
        refine ⟨rest, by rw [hconsole]; exact hstream, hrest.imp_right ?_⟩
        rintro ⟨a, m, hpc, hpos, hrest⟩
        exact ⟨a, m, hpcs a m hpc (h.middle a hpos).1, hpos, hrest⟩
  | some e =>
      obtain ⟨a, m⟩ := e
      rw [hp] at hs
      obtain ⟨rfl, hpc, hc, hx⟩ := printing_eq_some hp
      have halone := hg a m hp
      have hstream := h.stream_of_alone hpc halone
      cases print_cases hpc hc hs with
      | piece piece hnext hmore =>
          have hself : Function.update s.printed a (s.printed a + 1) a = s.printed a + 1 :=
            Function.update_self ..
          -- only the agent that prints is now in the middle of a line
          have hother : ∀ b, 0 < Function.update s.printed a (s.printed a + 1) b → b = a := by
            intro b hb
            by_contra hne
            rw [Function.update_of_ne hne, halone b hne] at hb
            exact Nat.lt_irrefl 0 hb
          refine ⟨fun b hb => ?_, fun b c hb hc' => (hother b hb).trans (hother c hc').symm, ?_⟩
          · obtain rfl := hother b hb
            exact ⟨hc, m, hpc⟩
          · refine ⟨(line useColors (a, m)).take (s.printed a + 1), ?_, Or.inr ⟨a, m, hpc, ?_, ?_⟩⟩
            · rw [take_line hnext, ← List.append_assoc, ← hstream]
            · exact Nat.lt_of_lt_of_eq (Nat.succ_pos _) hself.symm
            · exact congrArg (fun k => (line useColors (a, m)).take k) hself.symm
      | last piece hnext hlast =>
          have hzero : ∀ b, Function.update s.printed a 0 b = 0 := by
            intro b
            by_cases hb : b = a
            · rw [hb, Function.update_self]
            · rw [Function.update_of_ne hb, halone b hb]
          have hnone : ∀ b, ¬ 0 < Function.update s.printed a 0 b := by
            intro b hb
            rw [hzero b] at hb
            exact Nat.lt_irrefl 0 hb
          refine ⟨fun b hb => absurd hb (hnone b), fun b _ hb => absurd hb (hnone b), ?_⟩
          refine ⟨[], ?_, Or.inl ⟨hzero, rfl⟩⟩
          -- with its last piece the line is whole
          have hwhole : (line useColors (a, m)).take (s.printed a + 1) = line useColors (a, m) := by
            rw [hlast, ← length_line (a, m), List.take_length]
          show s.stream ++ [(a, m, piece)] =
            (s.logger.console ++ [(a, m)]).flatMap (line useColors) ++ []
          rw [hstream, List.append_assoc, ← take_line hnext, hwhole, List.flatMap_append,
            List.append_nil]
          simp

/-- A piece in the middle of another's line tears it. -/
theorem not_whole_of_not_alone {act : LoggerAct n} (h : ConsoleInv useColors s)
    (hg : ¬ Alone s act) : ∃ s', s.step useColors act = some s' ∧ ¬ Whole useColors s' := by
  unfold Alone at hg
  push Not at hg
  obtain ⟨a, m, hp, b, hne, hb⟩ := hg
  have hbpos := Nat.pos_of_ne_zero hb
  obtain ⟨rfl, hpc, hc, hx⟩ := printing_eq_some hp
  -- who gets in between has printed nothing of its own line yet
  have hzero : s.printed a = 0 := by
    by_contra hpos
    exact hne (h.single b a hbpos (Nat.pos_of_ne_zero hpos))
  obtain ⟨rest, hstream, ⟨hnone, -⟩ | ⟨c, m', hpc', hpos, rfl⟩⟩ := h.stream
  · exact absurd (hnone b) hb
  · have hcb : c = b := h.single c b hpos hbpos
    subst hcb
    obtain ⟨piece, piece', pieces, hpieces⟩ : ∃ piece piece' pieces,
        writeToConsole useColors = piece :: piece' :: pieces := by
      cases useColors
      · exact ⟨_, _, _, rfl⟩
      · exact ⟨_, _, _, rfl⟩
    have hstep : s.step useColors (.run a) = some { s with
        printed := Function.update s.printed a (0 + 1)
        stream := s.stream ++ [(a, m, piece)] } := by
      unfold ConsoleState.step
      rw [hp]
      dsimp only
      unfold print
      rw [hzero, hpieces]
      rfl
    refine ⟨_, hstep, ?_⟩
    rintro ⟨rest', hstream', hrest'⟩
    dsimp only at hstream'
    rw [hstream, List.append_assoc] at hstream'
    obtain rfl := List.append_cancel_left hstream'
    rcases hrest' with hnil | ⟨e, hpre⟩
    · exact absurd hnil (by simp)
    · -- all pieces of a line are of one agent
      have hagent : ∀ x ∈ line useColors e, x.1 = e.1 := by
        intro x hx'
        obtain ⟨_, -, rfl⟩ := List.mem_map.mp hx'
        rfl
      have hlast := hagent (a, m, piece) (hpre.subset (by simp))
      have hfirst : ∃ x ∈ (line useColors (c, m')).take (s.printed c), x.1 = c := by
        have hlen : 0 < ((line useColors (c, m')).take (s.printed c)).length := by
          have hlong := length_writeToConsole useColors
          rw [List.length_take, length_line]
          omega
        obtain ⟨x, hx'⟩ := List.exists_mem_of_length_pos hlen
        obtain ⟨_, -, rfl⟩ := List.mem_map.mp (List.mem_of_mem_take hx')
        exact ⟨_, hx', rfl⟩
      obtain ⟨x, hx', hxc⟩ := hfirst
      have hfirst := hagent x (hpre.subset (List.mem_append_left _ hx'))
      exact hne ((hxc.symm.trans hfirst).trans hlast.symm)

/--
**The console shows whole lines in a run exactly when no agent prints while another is in the middle
of its line.**
-/
theorem console_whole_iff (n : Nat) (useColors : Bool) (config : LoggerConfig) (fopen create : Bool)
    (acts : List (LoggerAct n)) :
    Throughout (step useColors) (Whole useColors) (initial config fopen create) acts ↔
      AllSteps (step useColors) Alone (initial config fopen create) acts :=
  throughout_iff (fun _ h => h.whole) (fun _ _ _ h hg hs => consoleInv_step h hg hs)
    (fun _ _ h hg => not_whole_of_not_alone h hg) (consoleInv_initial config fopen create)

/-- A line of the console, in bytes. -/
def consoleLine (useColors : Bool) (localtime : Nat → Tm) (m : LogMessage) : List UInt8 :=
  (writeToConsole useColors).flatMap (Piece.bytes localtime m)

/-- The bytes of a whole console begin with those of the lines that were written. -/
theorem text_of_whole (h : Whole useColors s) (localtime : Nat → Tm) :
    (s.logger.console.flatMap fun e => consoleLine useColors localtime e.2.message) <+:
      s.text localtime := by
  obtain ⟨rest, hstream, -⟩ := h
  refine ⟨rest.flatMap fun e => e.2.2.bytes localtime e.2.1.message, ?_⟩
  unfold ConsoleState.text
  rw [hstream, List.flatMap_append, List.flatMap_assoc]
  simp only [line, consoleLine, List.flatMap_map]

/-- Two threads that log at once, without a worker. -/
example : (exec (step false) (initial (n := 2) ⟨.debug, false, true, false, ""⟩ true true)
    ([.log 0 hello, .log 1 goodbye] ++ [0, 1, 0, 1, 0, 1].map fun t => .run (.thread t))).map
      (fun s => s.stream.map fun e => (e.1, e.2.2)) =
    some [(some 0, .text), (some 1, .text), (some 0, .newline), (some 1, .newline)] := by
  decide

end DesktopEngine.Logger
