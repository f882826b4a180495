import EmbeddedBridge.Library.Unwrap
import EmbeddedBridge.Receivers.EventCapture

/-! # The device's timeline

Event capture unwraps the device's 32-bit microseconds as `Library.Unwrap` does:
it counts a wrap when time seems to jump back by half a period, and never takes one
back.  A core that lags behind another across a wrap therefore puts the timeline a
period ahead, for good.
-/

namespace EmbeddedBridge.Python.EventCapture

open Library Py

variable {φ : Type}

/-- The raw time of the event in a line, if there is one and it is well formed. -/
def stamp (φ : Type) [PyFloat φ] (depth : Nat) (message : Line) : Option Nat :=
  let line := strip message.text
  if line.head? ≠ some 0x7B then none
  else match (Json.loads depth line : Except Raised (Json φ)) with
    | .ok (.object obj) =>
      match Json.get obj (str "ph"), Json.get obj (str "name"), Json.get obj (str "ts") with
      | some (.str ph), some (.str name), some (.number (.int (.ofNat raw))) =>
        if (ph = str "B" ∨ ph = str "E") ∧ name ≠ [] then some raw else none
      | _, _, _ => none
    | _ => none

/-! ## What the unwrapper sees -/

/-- The state of `Library.Unwrap` in a capture. -/
structure Unwraps (capture : EventCapture φ) (unwrap : Unwrap.State) : Prop where
  last : capture.lastRawTsUs =
    match unwrap.last with
    | none => .null
    | some reading => .number (.int reading)
  wraps : capture.wrapCount = unwrap.wraps

/-- No time is unwrapped. -/
def SameTime (before after : EventCapture φ) : Prop :=
  after.lastRawTsUs = before.lastRawTsUs ∧ after.wrapCount = before.wrapCount ∧
    after.adjusted = before.adjusted

theorem sameTime_refl (capture : EventCapture φ) : SameTime capture capture := ⟨rfl, rfl, rfl⟩

theorem sameTime_trans (first second third : EventCapture φ) (here : SameTime first second)
    (later : SameTime second third) : SameTime first third :=
  ⟨later.1.trans here.1, later.2.1.trans here.2.1, later.2.2.trans here.2.2⟩

variable [PyFloat φ]

theorem pair_sameTime (event : TraceEvent φ) : Methods.Preserves SameTime (pair event) := by
  unfold pair
  cases event.action with
  | started =>
    exact Methods.Preserves.bind sameTime_trans (.ofExcept sameTime_refl _) fun key =>
      .ofModify fun capture => ⟨rfl, rfl, rfl⟩
  | stopped =>
    refine Methods.Preserves.bind sameTime_trans (.ofGet sameTime_refl) fun capture => ?_
    cases capture.pending.isEmpty with
    | true => exact .ofPure sameTime_refl _
    | false =>
      refine Methods.Preserves.bind sameTime_trans (.ofExcept sameTime_refl _) fun key => ?_
      refine Methods.Preserves.bind sameTime_trans (.ofGet sameTime_refl) fun capture => ?_
      simp only
      cases Json.getItem Json.Key.same key capture.pending with
      | none => exact .ofPure sameTime_refl _
      | some start => exact .ofModify fun capture => ⟨rfl, rfl, rfl⟩

theorem record_sameTime (name : Json φ) (action : TraceEvent.Action) (adjusted : Number φ)
    (hostTs : φ) : Methods.Preserves SameTime (record name action adjusted hostTs) :=
  Methods.Preserves.bind sameTime_trans (.ofExcept sameTime_refl _) fun _ =>
    Methods.Preserves.bind sameTime_trans (.ofModify fun _ => ⟨rfl, rfl, rfl⟩) fun _ =>
      pair_sameTime _

/-- An integer is unwrapped as the library does. -/
theorem run_adjust_int (capture : EventCapture φ) (unwrap : Unwrap.State) (reading : Nat)
    (unwraps : capture.Unwraps unwrap) :
    ∃ (time : Nat) (after : EventCapture φ),
      Methods.run (adjust (.number (.int reading))) capture = (.ok (.int time), after) ∧
        (Unwrap.step (2 ^ 31) unwrap reading).2 = [time] ∧
        after.Unwraps (Unwrap.step (2 ^ 31) unwrap reading).1 ∧
        after.adjusted = capture.adjusted ++ [.int time] := by
  obtain ⟨last, wraps⟩ := unwraps
  have detected : hasWrapped capture.lastRawTsUs (.number (.int reading) : Json φ) =
      .ok (Unwrap.wrapped (2 ^ 31) unwrap.last reading) := by
    rw [last]
    cases unwrap.last with
    | none => rfl
    | some before => rfl
  refine ⟨_, _, run_adjust capture _ _ (.int reading) _ detected rfl ?_, rfl, ⟨rfl, ?_⟩, rfl⟩
  · rw [Number.add_int, wraps]
    cases Unwrap.wrapped (2 ^ 31) unwrap.last reading <;> simp [timestampWrapUs]
  · rw [wraps]
    rfl

/-- A line with an event is adjusted and recorded. -/
theorem feed_stamped {depth : Nat} {message : Line} {raw : Nat} (hostTs : φ)
    (stamped : stamp φ depth message = some raw) :
    ∃ name action, feed depth hostTs message =
      (adjust (.number (.int raw)) >>= fun adjusted => record name action adjusted hostTs) := by
  rw [stamp] at stamped
  split at stamped
  · cases stamped
  rename_i brace
  split at stamped
  · rename_i obj loaded
    split at stamped
    · rename_i ph name raw' isPh isName isTs
      split at stamped
      · rename_i event
        cases stamped
        obtain ⟨begins, named⟩ := event
        have known : (Json.isStr (str "B") (.str ph : Json φ) ||
            Json.isStr (str "E") (.str ph : Json φ)) = true := by
          simpa [Json.isStr] using begins
        have truthy : (Json.str name : Json φ).truthy = true := by
          simpa [Json.truthy] using named
        refine ⟨.str name,
          if Json.isStr (str "B") (.str ph : Json φ) then .started else .stopped, ?_⟩
        simp only [feed, if_neg brace, loaded, feedObject, isPh, isName, isTs, Option.getD_some,
          known, truthy, Bool.not_true, Bool.false_eq_true, ↓reduceIte]
        rfl
      · cases stamped
    · cases stamped
  · cases stamped

/-- One line of a device whose times are unwrapped. -/
theorem run_feed (depth : Nat) (capture : EventCapture φ) (unwrap : Unwrap.State) (hostTs : φ)
    (message : Line) (reading : Nat) (unwraps : capture.Unwraps unwrap)
    (stamped : stamp φ depth message = some reading) :
    let after := (Methods.run (feed depth hostTs message) capture).2
    ∃ time : Nat, (Unwrap.step (2 ^ 31) unwrap reading).2 = [time] ∧
      after.Unwraps (Unwrap.step (2 ^ 31) unwrap reading).1 ∧
      after.adjusted = capture.adjusted ++ [.int time] := by
  obtain ⟨name, action, fed⟩ := feed_stamped hostTs stamped
  obtain ⟨time, after, ran, emits, unwraps', adjusted⟩ :=
    run_adjust_int capture unwrap reading unwraps
  -- what becomes of the event leaves the times alone
  obtain ⟨last, wraps, same⟩ := record_sameTime name action (.int time) hostTs after
  rw [fed, Methods.run_bind_ok _ ran]
  exact ⟨time, emits, ⟨last.trans unwraps'.last, wraps.trans unwraps'.wraps⟩, same.trans adjusted⟩

/-- Lines of events come out with the times that the unwrapper gives them. -/
theorem feedAll_adjusted (depth : Nat) (capture : EventCapture φ) (unwrap : Unwrap.State)
    (lines : List (φ × Line)) (readings : List Nat) (unwraps : capture.Unwraps unwrap)
    (stamped : lines.map (fun line => stamp φ depth line.2) = readings.map some) :
    (feedAll depth capture lines).adjusted = capture.adjusted ++
      (Transducer.run (Unwrap.step (2 ^ 31)) unwrap readings).2.map
        fun time => .int (time : Int) := by
  induction lines generalizing capture unwrap readings with
  | nil =>
    rw [List.map_nil, eq_comm, List.map_eq_nil_iff] at stamped
    rw [stamped]
    exact (List.append_nil _).symm
  | cons line lines inductionHypothesis =>
    cases readings with
    | nil => cases stamped
    | cons reading readings =>
      rw [List.map_cons, List.map_cons, List.cons.injEq] at stamped
      obtain ⟨time, emits, unwraps', adjusted⟩ :=
        run_feed depth capture unwrap line.1 line.2 reading unwraps stamped.1
      have rest := inductionHypothesis _ _ readings unwraps' stamped.2
      rw [feedAll] at rest ⊢
      rw [List.foldl_cons, rest, adjusted, Transducer.run_cons, emits]
      simp

/-! ## Main result -/

/-- With steps of less than 2³¹ µs either way, the times come out as they were exactly
when none goes back across a multiple of 2³² µs. -/
theorem timeline_iff (depth : Nat) (lines : List (φ × Line)) (times : List Nat)
    (begins : ∀ first ∈ times.head?, first < 2 ^ 32)
    (near : times.IsChain fun before now => now < before + 2 ^ 31 ∧ before < now + 2 ^ 31)
    (stamped : lines.map (fun line => stamp φ depth line.2) =
      times.map fun time => some (time % 2 ^ 32)) :
    (feedAll depth {} lines).adjusted = times.map (fun time => .int (time : Int)) ↔
      times.IsChain fun before now => now < before → now / 2 ^ 32 = before / 2 ^ 32 := by
  have adjusted := feedAll_adjusted depth ({} : EventCapture φ) {} lines (times.map (· % 2 ^ 32))
    ⟨rfl, rfl⟩ (stamped.trans List.map_map.symm)
  have unwrapped := Unwrap.run_unwrap_iff times begins near
  have injective : Function.Injective fun time : Nat => (Number.int (time : Int) : Number φ) :=
    fun left right same => Int.ofNat.inj (Number.int.inj same)
  rw [adjusted, List.nil_append, injective.list_map.eq_iff]
  exact unwrapped

/-- Two cores around a wrap: the second is ahead by 11 µs, the first 10 µs behind it. -/
def skewedLines : List (Micro × Line) :=
  [(⟨0⟩, .str (str "\x7b\"ph\":\"B\",\"ts\":4294967290,\"name\":\"gps\"\x7d")),
    (⟨1⟩, .str (str "\x7b\"ph\":\"B\",\"ts\":5,\"name\":\"imu\"\x7d")),
    (⟨2⟩, .str (str "\x7b\"ph\":\"E\",\"ts\":4294967291,\"name\":\"gps\"\x7d"))]

theorem timeline_iff_skewed :
    (feedAll 2 {} skewedLines).adjusted =
        [4294967290, 4294967301, 4294967291].map (fun time : Nat => .int (time : Int)) ↔
      [4294967290, 4294967301, 4294967291].IsChain fun before now : Nat =>
        now < before → now / 2 ^ 32 = before / 2 ^ 32 :=
  timeline_iff 2 skewedLines [4294967290, 4294967301, 4294967291] (by simp) (by simp)
    (by decide +kernel)

/-- The event that lags behind ends up a period ahead. -/
theorem timeline_skewed :
    let times : List Nat := [4294967290, 4294967301, 4294967291]
    skewedLines.map (fun line => stamp Micro 2 line.2) =
        times.map (fun time => some (time % 2 ^ 32)) ∧
      times.IsChain (fun before now => now < before + 2 ^ 31 ∧ before < now + 2 ^ 31) ∧
      (feedAll 2 {} skewedLines).adjusted =
        [4294967290, 4294967301, 4294967291 + 2 ^ 32].map (fun time : Nat => .int (time : Int)) ∧
      (feedAll 2 {} skewedLines).adjusted ≠ times.map (fun time => .int (time : Int)) :=
  ⟨by decide +kernel, by simp, by decide +kernel, by decide +kernel⟩

end EmbeddedBridge.Python.EventCapture
