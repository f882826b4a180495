import EmbeddedBridge.Library.Transducer

/-! # Layers of a protocol

A layer puts items on a stream of symbols and takes them off again.  Between two items
its receiver is `Ready`; an item that fits takes it from there back to there, and what
the item delivers is handed on meanwhile.

In a stack of two layers the frame of an item of the upper one is what some items of the
lower one deliver (`stack`), so that a stack is a layer again.
-/

namespace EmbeddedBridge.Library

variable {σ τ α β γ ι κ : Type*}

structure Layer (σ α ι β : Type*) where
  encode : ι → List α
  step : Transducer.Step σ α β
  start : σ
  Ready : σ → Prop
  Fits : ι → Prop
  delivers : ι → List β
  ready_start : Ready start
  run_encode : ∀ state item, Ready state → Fits item →
    ∃ next, Ready next ∧ Transducer.run step state (encode item) = (next, delivers item)

namespace Layer

variable (layer : Layer σ α ι β)

/-- Items that fit, one after the other. -/
theorem run_items {state : σ} (ready : layer.Ready state) (items : List ι)
    (fits : ∀ item ∈ items, layer.Fits item) :
    ∃ next, layer.Ready next ∧
      Transducer.run layer.step state (items.flatMap layer.encode) =
        (next, items.flatMap layer.delivers) := by
  induction items generalizing state with
  | nil => exact ⟨state, ready, rfl⟩
  | cons item items inductionHypothesis =>
    obtain ⟨middle, between, first⟩ :=
      layer.run_encode state item ready (fits item List.mem_cons_self)
    obtain ⟨next, ready', later⟩ :=
      inductionHypothesis between fun other member => fits other (List.mem_cons_of_mem _ member)
    exact ⟨next, ready', Transducer.run_trans layer.step first later⟩

theorem delivered {state : σ} (ready : layer.Ready state) (items : List ι)
    (fits : ∀ item ∈ items, layer.Fits item) :
    (Transducer.run layer.step state (items.flatMap layer.encode)).2 =
      items.flatMap layer.delivers := by
  obtain ⟨next, _, ran⟩ := layer.run_items ready items fits
  rw [ran]

/-- Whatever reads what the layer hands on, a reader or the next layer. -/
theorem delivered_to (reader : Transducer.Step τ β γ) {state : σ} (ready : layer.Ready state)
    (first : τ) (items : List ι) (fits : ∀ item ∈ items, layer.Fits item) :
    (Transducer.run (Transducer.cascade layer.step reader) (state, first)
        (items.flatMap layer.encode)).2 =
      (Transducer.run reader first (items.flatMap layer.delivers)).2 := by
  rw [Transducer.run_cascade]
  simp only
  rw [layer.delivered ready items fits]

/-- The items that the layers below are given for an item are in `pack`. -/
def stack (lower : Layer σ α ι β) (upper : Layer τ β κ γ) (pack : κ → List ι)
    (packs : ∀ item, upper.Fits item → (pack item).flatMap lower.delivers = upper.encode item) :
    Layer (σ × τ) α κ γ where
  encode item := (pack item).flatMap lower.encode
  step := Transducer.cascade lower.step upper.step
  start := (lower.start, upper.start)
  Ready state := lower.Ready state.1 ∧ upper.Ready state.2
  Fits item := upper.Fits item ∧ ∀ part ∈ pack item, lower.Fits part
  delivers := upper.delivers
  ready_start := ⟨lower.ready_start, upper.ready_start⟩
  run_encode state item ready fits := by
    obtain ⟨below, ready', ran⟩ := lower.run_items ready.1 (pack item) fits.2
    obtain ⟨above, ready'', read⟩ := upper.run_encode state.2 item ready.2 fits.1
    refine ⟨(below, above), ⟨ready', ready''⟩, ?_⟩
    rw [Transducer.run_cascade, ran, packs item fits.1, read]

end Layer

end EmbeddedBridge.Library
