import ClassOrder.Console.Basic
import ClassOrder.Proofs.Answers

/-!
# Setting the console log up and taking it down

A console log is `Wired` if its handlers are those of others and at most one of its own, which passes
lines to the listener in use, and if no other listener runs. Setting up and taking down go through a
state in which nothing of the own is left (`IsDown`), whatever was there before, so every sequence of
calls leaves the log wired (`Wired.run`). The handlers of others are never touched.
-/

namespace ClassOrder

namespace Console

/-! ## Calls -/

/-- What happens to the handlers: calls, and changes that others make to their own handlers. -/
inductive Event where
  | configure (setup : ConsoleSetup) (force : Bool)
  | shutdown
  | addForeign (label : Nat)
  | removeForeign (label : Nat)

def after (console : Console) : Event → Console
  | .configure setup force => console.configure setup force
  | .shutdown => console.shutdown
  | .addForeign label => console.addForeign label
  | .removeForeign label => console.removeForeign label

def run (console : Console) (events : List Event) : Console := events.foldl after console

/-- A console log without own handlers and listeners, among the handlers of others. -/
def bare (threshold : Severity) (configured : Bool) (labels : List Nat) : Console :=
  { threshold, configured, handlers := labels.map .foreign }

/-! ## What is there -/

/-- A listener was started and is not stopped. -/
def IsRunning (console : Console) (number : Nat) : Prop :=
  ∃ listener, console.listeners[number]? = some listener ∧ listener.running

/-- The handlers that pass lines to listeners. -/
def own (console : Console) : List Handler := console.handlers.filter Handler.isConsole

/-- The handlers of others, in order. -/
def others (console : Console) : List Handler := console.handlers.filter (!·.isConsole)

/-- No own handler is left, and no listener. -/
structure IsDown (console : Console) : Prop where
  own : console.own = []
  current : console.current = none
  stopped : ∀ number, ¬console.IsRunning number

/-- The own handlers are one for the listener in use, and that is the one that runs. -/
structure Wired (console : Console) : Prop where
  own : console.own = console.current.toList.map .console
  isRunning_iff : ∀ number, console.IsRunning number ↔ console.current = some number

theorem IsDown.wired {console : Console} (h : IsDown console) : Wired console where
  own := by rw [h.own, h.current]; rfl
  isRunning_iff number := by
    rw [h.current]
    exact iff_of_false (h.stopped number) (by simp)

theorem isDown_bare (threshold : Severity) (configured : Bool) (labels : List Nat) :
    IsDown (bare threshold configured labels) where
  own := by
    have foreign : ∀ handler ∈ labels.map Handler.foreign, ¬handler.isConsole := by
      simp [Handler.isConsole]
    exact List.filter_eq_nil_iff.2 foreign
  current := rfl
  stopped number := by simp [IsRunning, bare]

variable {console : Console}

/-! ## Handlers that are taken away, and listeners that are stopped -/

theorem own_removeHandlers (console : Console) : console.removeHandlers.own = [] := by
  simp [own, removeHandlers]

theorem others_removeHandlers (console : Console) :
    console.removeHandlers.others = console.others := by
  simp [others, removeHandlers]

@[simp] theorem handlers_stopListener (console : Console) :
    console.stopListener.handlers = console.handlers := by
  unfold stopListener
  split <;> rfl

@[simp] theorem threshold_stopListener (console : Console) :
    console.stopListener.threshold = console.threshold := by
  unfold stopListener
  split <;> rfl

@[simp] theorem current_stopListener (console : Console) : console.stopListener.current = none := by
  unfold stopListener
  split
  · assumption
  · rfl

theorem stopListener_configured (console : Console) (configured : Bool) :
    { console.stopListener with configured } = { console with configured }.stopListener := by
  obtain ⟨threshold, before, handlers, listeners, current⟩ := console
  cases current <;> rfl

/-- If only the listener in use runs, none does when that one is stopped. -/
theorem not_isRunning_stopListener
    (h : ∀ number, console.IsRunning number → console.current = some number) (number : Nat) :
    ¬console.stopListener.IsRunning number := by
  cases current : console.current with
  | none =>
    have same : console.stopListener = console := by simp [stopListener, current]
    rw [same]
    intro running
    rw [h number running] at current
    cases current
  | some stopped =>
    rintro ⟨listener, at_number, running⟩
    simp only [stopListener, current, List.getElem?_modify] at at_number
    by_cases same : stopped = number
    · obtain ⟨_, _, rfl⟩ := Option.map_eq_some_iff.1 at_number
      simp [same] at running
    · have before : console.listeners[number]? = some listener := by simpa [same] using at_number
      exact same (Option.some.inj (current.symm.trans (h number ⟨listener, before, running⟩)))

theorem isDown_stopListener (own : console.own = [])
    (h : ∀ number, console.IsRunning number → console.current = some number) :
    IsDown console.stopListener where
  own := by rw [Console.own, handlers_stopListener]; exact own
  current := current_stopListener console
  stopped := not_isRunning_stopListener h

/-! ## A listener that is started -/

theorem own_startListener (console : Console) (format : Text) :
    (console.startListener format).own = console.own ++ [.console console.listeners.length] := by
  rw [own, startListener, List.filter_append]
  rfl

theorem others_startListener (console : Console) (format : Text) :
    (console.startListener format).others = console.others := by
  rw [others, startListener, List.filter_append]
  exact List.append_nil _

theorem isRunning_startListener (format : Text) (number : Nat) :
    (console.startListener format).IsRunning number ↔
      console.IsRunning number ∨ number = console.listeners.length := by
  unfold IsRunning startListener
  rcases Nat.lt_trichotomy number console.listeners.length with lt | rfl | gt
  · simp [List.getElem?_append_left lt, Nat.ne_of_lt lt]
  · simp
  · have beyond : number - console.listeners.length ≠ 0 := Nat.sub_ne_zero_of_lt gt
    simp [List.getElem?_append_right (Nat.le_of_lt gt), Nat.le_of_lt gt, Nat.ne_of_gt gt, beyond]

theorem IsDown.wired_startListener (h : IsDown console) (format : Text) :
    Wired (console.startListener format) where
  own := by
    rw [own_startListener, h.own]
    rfl
  isRunning_iff number := by
    -- No listener from before runs, so the new one is the only one.
    have current : (console.startListener format).current = some console.listeners.length := rfl
    rw [isRunning_startListener, or_iff_right (h.stopped number), current, Option.some_inj, eq_comm]

/-! ## Calls on a wired console log -/

/-- The console log when a set-up has cleared it. -/
def cleared (console : Console) (setup : ConsoleSetup) : Console :=
  stopListener (removeHandlers { console with threshold := setup.threshold, configured := true })

theorem configure_of_accepts {setup : ConsoleSetup} {force : Bool} (h : console.accepts force) :
    console.configure setup force =
      if setup.enabled && setup.fault?.isNone then
        (console.cleared setup).startListener setup.format
      else console.cleared setup :=
  if_pos h

theorem configure_of_not_accepts (setup : ConsoleSetup) {force : Bool} (h : ¬console.accepts force) :
    console.configure setup force = console :=
  if_neg h

theorem clear_eq (setup : ConsoleSetup) (console : Console) :
    clear setup console = .ok () (console.cleared setup) := by
  -- The mark is set last, while `cleared` sets it together with the threshold.
  have marked : { stopListener (removeHandlers { console with threshold := setup.threshold }) with
      configured := true } = console.cleared setup :=
    stopListener_configured _ true
  rw [← marked]
  rfl

theorem attach_eq (setup : ConsoleSetup) (console : Console) :
    attach setup console =
      match setup.fault? with
      | some fault => .error fault console
      | none => .ok () (if setup.enabled then console.startListener setup.format else console) := by
  unfold attach ConsoleSetup.fault?
  cases setup.enabled with
  | false => rfl
  | true => cases LogFormat.fault? setup.format <;> rfl

/-- Setting up change by change comes to the state that `configure` gives, also when it fails. -/
theorem setUp_eq (setup : ConsoleSetup) (force : Bool) (console : Console) :
    setUp setup force console =
      match console.refusal? setup force with
      | some fault => .error fault (console.configure setup force)
      | none => .ok () (console.configure setup force) := by
  change
    (if console.accepts force then clear setup >>= fun _ => attach setup else pure ()) console = _
  by_cases accepted : console.accepts force
  · rw [if_pos accepted, bind_of_ok (clear_eq setup console), attach_eq, refusal?, if_pos accepted,
      configure_of_accepts accepted]
    cases setup.fault? <;> cases setup.enabled <;> rfl
  · rw [if_neg accepted, refusal?, if_neg accepted, configure_of_not_accepts setup accepted]
    rfl

theorem threshold_configure {setup : ConsoleSetup} {force : Bool} (h : console.accepts force) :
    (console.configure setup force).threshold = setup.threshold := by
  have cleared : (console.cleared setup).threshold = setup.threshold := threshold_stopListener _
  rw [configure_of_accepts h]
  split_ifs
  · exact cleared
  · exact cleared

theorem others_cleared (console : Console) (setup : ConsoleSetup) :
    (console.cleared setup).others = console.others := by
  rw [others, cleared, handlers_stopListener]
  exact others_removeHandlers console

theorem others_configure (console : Console) (setup : ConsoleSetup) (force : Bool) :
    (console.configure setup force).others = console.others := by
  by_cases accepted : console.accepts force
  · rw [configure_of_accepts accepted]
    split_ifs
    · rw [others_startListener, others_cleared]
    · exact others_cleared console setup
  · rw [configure_of_not_accepts setup accepted]

theorem others_shutdown (console : Console) : console.shutdown.others = console.others := by
  have removed : console.shutdown.others = console.stopListener.others :=
    others_removeHandlers console.stopListener
  rw [removed, others, handlers_stopListener, others]

namespace Wired

theorem isDown_cleared (h : Wired console) (setup : ConsoleSetup) : IsDown (console.cleared setup) :=
  isDown_stopListener (own_removeHandlers _) fun number => (h.isRunning_iff number).1

theorem configure (h : Wired console) (setup : ConsoleSetup) (force : Bool) :
    Wired (console.configure setup force) := by
  by_cases accepted : console.accepts force
  · rw [configure_of_accepts accepted]
    split_ifs
    · exact (h.isDown_cleared setup).wired_startListener setup.format
    · exact (h.isDown_cleared setup).wired
  · rwa [configure_of_not_accepts setup accepted]

/-- After a set-up that has an effect there is an own handler if lines are to be written and the
format is not refused. -/
theorem own_configure (h : Wired console) {setup : ConsoleSetup} {force : Bool}
    (accepted : console.accepts force) :
    (console.configure setup force).own ≠ [] ↔ setup.enabled ∧ setup.fault? = none := by
  have down := h.isDown_cleared setup
  rw [configure_of_accepts accepted, ← Option.isNone_iff_eq_none, ← Bool.and_eq_true]
  split_ifs with started
  · simp [own_startListener, started]
  · simp [down.own, started]

theorem isDown_shutdown (h : Wired console) : IsDown console.shutdown where
  own := own_removeHandlers console.stopListener
  current := current_stopListener console
  stopped := not_isRunning_stopListener fun number => (h.isRunning_iff number).1

theorem addForeign (h : Wired console) (label : Nat) : Wired (console.addForeign label) where
  own := by
    rw [Console.own, Console.addForeign, List.filter_append]
    exact (List.append_nil _).trans h.own
  isRunning_iff := h.isRunning_iff

theorem removeForeign (h : Wired console) (label : Nat) : Wired (console.removeForeign label) where
  own := by
    have foreign : Handler.foreign label ∉ console.own := by simp [Console.own, Handler.isConsole]
    rw [Console.own, Console.removeForeign, ← List.erase_filter]
    exact (List.erase_of_not_mem foreign).trans h.own
  isRunning_iff := h.isRunning_iff

theorem after (h : Wired console) (event : Event) : Wired (console.after event) := by
  cases event with
  | configure setup force => exact h.configure setup force
  | shutdown => exact h.isDown_shutdown.wired
  | addForeign label => exact h.addForeign label
  | removeForeign label => exact h.removeForeign label

theorem run (h : Wired console) (events : List Event) : Wired (console.run events) := by
  induction events generalizing console with
  | nil => exact h
  | cons event events ih => exact ih (h.after event)

theorem length_own_le (h : Wired console) : console.own.length ≤ 1 := by
  rw [h.own, List.length_map]
  cases console.current <;> simp

/-- A listener is in use exactly if an own handler is there. -/
theorem listening_iff (h : Wired console) : console.listening ↔ console.own ≠ [] := by
  rw [listening, h.own]
  cases console.current <;> simp

theorem own_ne_nil_iff (h : Wired console) :
    console.own ≠ [] ↔ ∃ number ∈ console.current, console.IsRunning number := by
  simp only [← h.listening_iff, h.isRunning_iff, listening, Option.isSome_iff_exists]
  simp

end Wired

/-- Whatever calls there were, at most one own handler is there, and it is there exactly if the
listener in use runs; every other listener is stopped. No call touches the handlers of others. A
request to set up what is set up changes nothing, unless it is forced. Any other request sets the
threshold, and an own handler is there afterwards exactly if lines are to be written; only a refused
format makes the request fail, and then no handler and no listener is left. -/
theorem wiring_of_run (threshold : Severity) (configured : Bool) (labels : List Nat)
    (events : List Event) :
    let console := (bare threshold configured labels).run events
    console.own.length ≤ 1 ∧
    (console.own ≠ [] ↔ ∃ number ∈ console.current, console.IsRunning number) ∧
    (∀ number, console.IsRunning number → console.current = some number) ∧
    (∀ setup force, (console.configure setup force).others = console.others) ∧
    console.shutdown.others = console.others ∧
    (console.configured → ∀ setup, setUp setup false console = .ok () console) ∧
    ∀ setup force, console.accepts force →
      let next := console.configure setup force
      next.threshold = setup.threshold ∧
      (setup.fault? = none →
        setUp setup force console = .ok () next ∧ (next.own ≠ [] ↔ setup.enabled)) ∧
      ∀ fault, setup.fault? = some fault →
        setUp setup force console = .error fault next ∧ IsDown next := by
  intro console
  have wired : Wired console := (isDown_bare threshold configured labels).wired.run events
  refine ⟨wired.length_own_le, wired.own_ne_nil_iff, fun number => (wired.isRunning_iff number).1,
    others_configure console, others_shutdown console, fun done setup => ?_,
    fun setup force accepted =>
      ⟨threshold_configure accepted, fun fine => ?_, fun fault refused => ?_⟩⟩
  · have ignored : ¬console.accepts false := by simp [accepts, done]
    rw [setUp_eq, refusal?, if_neg ignored, configure_of_not_accepts setup ignored]
  · rw [setUp_eq, refusal?, if_pos accepted, fine, wired.own_configure accepted]
    exact ⟨rfl, and_iff_left fine⟩
  · have cleared : console.configure setup force = console.cleared setup := by
      rw [configure_of_accepts accepted, refused]
      simp
    rw [setUp_eq, refusal?, if_pos accepted, refused, cleared]
    exact ⟨rfl, wired.isDown_cleared setup⟩

/-- A set-up whose format has no field. -/
def fieldless : ConsoleSetup := { format := "plain" }

/-- A request that has an effect and asks for lines to be written, and leaves no handler behind. -/
theorem own_configure_fieldless :
    fresh.accepts false ∧
      setUp fieldless false fresh =
        .error (.noField "plain") (fresh.configure fieldless false) ∧
      ¬((fresh.configure fieldless false).own ≠ [] ↔ fieldless.enabled) := by
  have refused : fieldless.fault? = some (.noField "plain") := by decide
  have accepted : fresh.accepts false := rfl
  have wired : Wired fresh := (isDown_bare .warning false []).wired
  refine ⟨accepted, ?_, fun same => ?_⟩
  · rw [setUp_eq, refusal?, if_pos accepted, refused]
  · have fine := ((wired.own_configure accepted).1 (same.2 rfl)).2
    rw [refused] at fine
    cases fine

end Console

end ClassOrder
