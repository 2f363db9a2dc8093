import Mathlib.Data.List.Basic
import Mathlib.Data.List.Count
import TekkGram.Interaction.Since

/-!
# The loading screen

The loading screen shows one entry over all other widgets, with a stream for its text. Everything
that happens to entries and streams is recorded in the order in which it happens.
-/

namespace TekkGram

open Interaction

namespace LoadingScreen

/-- A stream of texts, by the number of its creation. -/
abbrev TextController := Nat

/-- An entry of an overlay, whose widget listens to a stream. -/
structure OverlayEntry where
  overlay : Nat
  textController : TextController
  deriving DecidableEq, Repr

/-- What happens to the entries and their streams. -/
inductive Effect where
  | add (textController : TextController) (text : String)
  | close (textController : TextController)
  | insert (entry : OverlayEntry)
  | remove (entry : OverlayEntry)
  deriving DecidableEq, Repr

/-- The variables that the closures of a controller have captured. -/
structure LoadingScreenController where
  textController : TextController
  overlay : OverlayEntry
  deriving DecidableEq, Repr

/-- What `showOverlay` finds at its context: the overlay above it, if there is one, and whether its
render object is a box. -/
structure BuildContext where
  overlay : Option Nat
  hasRenderBox : Bool
  deriving DecidableEq, Repr

/-- The loading screen, with the number of streams created and all that has happened so far. -/
structure State where
  controller : Option LoadingScreenController
  created : Nat
  effects : List Effect
  deriving DecidableEq, Repr

/-- Nothing has been shown. -/
def State.initial : State := ⟨none, 0, []⟩

/-- Something more happens. -/
def State.perform (s : State) (effect : Effect) : State :=
  { s with effects := s.effects ++ [effect] }

/-- The closure `update`. -/
def LoadingScreenController.update (controller : LoadingScreenController) (text : String)
    (s : State) : Bool × State :=
  (true, s.perform (.add controller.textController text))

/-- The closure `close`. -/
def LoadingScreenController.close (controller : LoadingScreenController) (s : State) :
    Bool × State :=
  (true, (s.perform (.close controller.textController)).perform (.remove controller.overlay))

/-- `showOverlay`, which throws where the context has no overlay above it or no box. -/
def State.showOverlay (s : State) (context : BuildContext) (text : String) :
    Option LoadingScreenController × State :=
  match context.overlay with
  | none => (none, s)
  | some state =>
    let textController := s.created
    let s := { s with created := s.created + 1 }.perform (.add textController text)
    if context.hasRenderBox then
      let overlay := ⟨state, textController⟩
      (some ⟨textController, overlay⟩, s.perform (.insert overlay))
    else (none, s)

/-- `show`. -/
def State.show (s : State) (context : BuildContext) (text : String) : State :=
  let (updated, s) := match s.controller with
    | none => (false, s)
    | some controller => controller.update text s
  if updated then s
  else
    match s.showOverlay context text with
    | (none, s) => s
    | (some controller, s) => { s with controller := some controller }

/-- `hide`. -/
def State.hide (s : State) : State :=
  match s.controller with
  | none => { s with controller := none }
  | some controller => { (controller.close s).2 with controller := none }

/-- A call of the loading screen. -/
inductive Call where
  | show (context : BuildContext) (text : String)
  | hide
  deriving DecidableEq, Repr

/-- The effect of a call. -/
def State.step (s : State) : Call → State
  | .show context text => s.show context text
  | .hide => s.hide

/-- The loading screen after these calls. -/
def after (calls : List Call) : State := calls.foldl State.step .initial

/-- The call shows something, where it is shown if nothing is shown yet. -/
def Call.Shows : Call → Prop
  | .show _ _ => True
  | .hide => False

/-- The context of the call lies below an overlay and has a box, as that of the app's only caller
does. -/
def Call.Mounted : Call → Prop
  | .show context _ => context.overlay.isSome ∧ context.hasRenderBox
  | .hide => True

/-- An entry is inserted, and it has not been removed. -/
def Inserted (effects : List Effect) (entry : OverlayEntry) : Prop :=
  .insert entry ∈ effects ∧ .remove entry ∉ effects

/-- At most one entry is inserted, no entry was inserted or removed twice, every other entry that
ever was inserted has been removed and its stream closed, and no text was added to a closed stream.
-/
structure Tidy (effects : List Effect) : Prop where
  one : ∀ entry entry', Inserted effects entry → Inserted effects entry' → entry = entry'
  insertedOnce : ∀ entry, effects.count (.insert entry) ≤ 1
  removedOnce : ∀ entry, effects.count (.remove entry) ≤ 1
  others : ∀ entry, .insert entry ∈ effects → ¬ Inserted effects entry →
    .remove entry ∈ effects ∧ .close entry.textController ∈ effects
  addedOpen : ∀ textController text,
    ¬ After (· = .close textController) (· = .add textController text) effects

section Effects

variable {effects : List Effect} {entry entry' : OverlayEntry} {textController : TextController}
  {text : String}

theorem inserted_add :
    Inserted (effects ++ [.add textController text]) entry ↔ Inserted effects entry := by
  simp [Inserted]

theorem inserted_close :
    Inserted (effects ++ [.close textController]) entry ↔ Inserted effects entry := by
  simp [Inserted]

/-- A new entry is inserted beside the others. -/
theorem inserted_insert (hnew : .remove entry' ∉ effects) :
    Inserted (effects ++ [.insert entry']) entry ↔ entry = entry' ∨ Inserted effects entry := by
  by_cases h : entry = entry'
  · subst h
    simp [Inserted, hnew]
  · simp [Inserted, h]

/-- Removing an entry leaves the others. -/
theorem inserted_remove :
    Inserted (effects ++ [.remove entry']) entry ↔ entry ≠ entry' ∧ Inserted effects entry := by
  by_cases h : entry = entry' <;> simp [Inserted, h]

/-- What happens for the first time has happened once. -/
theorem count_append_le {effect effect' : Effect} (h : effects.count effect' ≤ 1)
    (hnew : effect ∉ effects) : (effects ++ [effect]).count effect' ≤ 1 := by
  rw [List.count_append, List.count_singleton]
  by_cases he : effect = effect'
  · subst he
    simp [List.count_eq_zero_of_not_mem hnew]
  · simpa [he] using h

/-- No text is added to a closed stream by what is no such addition. -/
theorem not_after_append {effect : Effect}
    (h : ∀ k t, ¬ After (· = .close k) (· = .add k t) effects)
    (hopen : ∀ k t, effect = .add k t → .close k ∉ effects) (k : TextController) (t : String) :
    ¬ After (· = .close k) (· = .add k t) (effects ++ [effect]) := by
  rw [after_snoc]
  rintro (hafter | ⟨⟨_, hclose, rfl⟩, hadd⟩)
  · exact h k t hafter
  · exact hopen k t hadd hclose

theorem tidy_nil : Tidy [] where
  one := nofun
  insertedOnce _ := Nat.zero_le 1
  removedOnce _ := Nat.zero_le 1
  others := nofun
  addedOpen _ _ h := by
    obtain ⟨before, x, later, he, -⟩ := h
    exact List.append_ne_nil_of_right_ne_nil before (List.cons_ne_nil x later) he.symm

/-- What was removed, with its stream closed, stays so. -/
theorem Tidy.others_append (h : Tidy effects) (effect : Effect) (hinsert : .insert entry ∈ effects)
    (hnot : ¬ Inserted effects entry) : .remove entry ∈ effects ++ [effect] ∧
      .close entry.textController ∈ effects ++ [effect] := by
  obtain ⟨hremove, hclose⟩ := h.others entry hinsert hnot
  exact ⟨List.mem_append_left _ hremove, List.mem_append_left _ hclose⟩

/-- Adding a text to an open stream keeps everything tidy. -/
theorem Tidy.add (h : Tidy effects) (hopen : .close textController ∉ effects) :
    Tidy (effects ++ [.add textController text]) where
  one e e' he he' := h.one e e' (inserted_add.mp he) (inserted_add.mp he')
  insertedOnce e := by simpa using h.insertedOnce e
  removedOnce e := by simpa using h.removedOnce e
  others e hinsert hnot := by
    rw [inserted_add] at hnot
    have hold : .insert e ∈ effects := by simpa using hinsert
    exact h.others_append _ hold hnot
  addedOpen := not_after_append h.addedOpen fun k t he => by
    cases he
    exact hopen

/-- Closing a stream keeps everything tidy. -/
theorem Tidy.close (h : Tidy effects) : Tidy (effects ++ [.close textController]) where
  one e e' he he' := h.one e e' (inserted_close.mp he) (inserted_close.mp he')
  insertedOnce e := by simpa using h.insertedOnce e
  removedOnce e := by simpa using h.removedOnce e
  others e hinsert hnot := by
    rw [inserted_close] at hnot
    have hold : .insert e ∈ effects := by simpa using hinsert
    exact h.others_append _ hold hnot
  addedOpen := not_after_append h.addedOpen nofun

/-- Inserting a new entry keeps everything tidy while no other one is inserted. -/
theorem Tidy.insert (h : Tidy effects) (hnone : ∀ e, ¬ Inserted effects e)
    (hinsert : .insert entry ∉ effects) (hremove : .remove entry ∉ effects) :
    Tidy (effects ++ [.insert entry]) where
  one e e' he he' := by
    rw [inserted_insert hremove] at he he'
    rw [he.resolve_right (hnone e), he'.resolve_right (hnone e')]
  insertedOnce e := count_append_le (h.insertedOnce e) hinsert
  removedOnce e := by simpa using h.removedOnce e
  others e hinsert' hnot := by
    rw [inserted_insert hremove, not_or] at hnot
    have hold : .insert e ∈ effects := by simpa [hnot.1] using hinsert'
    exact h.others_append _ hold hnot.2
  addedOpen := not_after_append h.addedOpen nofun

/-- Removing an inserted entry whose stream is closed keeps everything tidy. -/
theorem Tidy.remove (h : Tidy effects) (hentry : Inserted effects entry)
    (hclosed : .close entry.textController ∈ effects) : Tidy (effects ++ [.remove entry]) where
  one e e' he he' := h.one e e' (inserted_remove.mp he).2 (inserted_remove.mp he').2
  insertedOnce e := by simpa using h.insertedOnce e
  removedOnce e := count_append_le (h.removedOnce e) hentry.2
  others e hinsert hnot := by
    have hold : .insert e ∈ effects := by simpa using hinsert
    rw [inserted_remove, not_and'] at hnot
    by_cases he : Inserted effects e
    · obtain rfl := not_not.mp (hnot he)
      exact ⟨List.mem_append_right _ List.mem_cons_self, List.mem_append_left _ hclosed⟩
    · exact h.others_append _ hold he
  addedOpen := not_after_append h.addedOpen nofun

end Effects

/-- The stream that an effect is about. -/
def Effect.textController : Effect → TextController
  | .add textController _ => textController
  | .close textController => textController
  | .insert entry => entry.textController
  | .remove entry => entry.textController

/-- The controller of an entry. -/
def OverlayEntry.controller (entry : OverlayEntry) : LoadingScreenController :=
  ⟨entry.textController, entry⟩

/-- Everything is tidy, the controller is that of the inserted entry, whose stream is open, and the
numbers of streams are those of created ones. -/
structure State.Invariant (s : State) : Prop where
  tidy : Tidy s.effects
  current : ∀ controller, s.controller = some controller → ∃ entry, controller = entry.controller ∧
    Inserted s.effects entry ∧ .close entry.textController ∉ s.effects
  inserted : ∀ entry, Inserted s.effects entry → s.controller = some entry.controller
  fresh : ∀ effect ∈ s.effects, effect.textController < s.created

section Calls

variable {s : State}

theorem State.invariant_initial : State.initial.Invariant where
  tidy := tidy_nil
  current := nofun
  inserted _ h := nomatch h.1
  fresh := nofun

/-- What `show` does: it updates the text of the entry that is there, or inserts an entry, or, where
the context does not let it, inserts none. -/
theorem State.show_cases (s : State) (context : BuildContext) (text : String) :
    (∃ controller, s.controller = some controller ∧
      s.show context text = s.perform (.add controller.textController text)) ∨
    (s.controller = none ∧ ∃ state, context.overlay = some state ∧ context.hasRenderBox = true ∧
      s.show context text =
        { ({ s with created := s.created + 1 }.perform (.add s.created text)).perform
            (.insert ⟨state, s.created⟩) with
          controller := some (OverlayEntry.controller ⟨state, s.created⟩) }) ∨
    (s.controller = none ∧ context.hasRenderBox = false ∧
      s.show context text = { s with created := s.created + 1 }.perform (.add s.created text)) ∨
    (s.controller = none ∧ context.overlay = none ∧ s.show context text = s) := by
  cases hcontroller : s.controller with
  | some controller =>
    refine .inl ⟨controller, rfl, ?_⟩
    simp only [State.show, hcontroller, LoadingScreenController.update, ite_true]
  | none =>
    cases hoverlay : context.overlay with
    | none =>
      refine .inr (.inr (.inr ⟨rfl, rfl, ?_⟩))
      simp only [State.show, hcontroller, showOverlay, hoverlay, Bool.false_eq_true, ite_false]
    | some state =>
      cases hbox : context.hasRenderBox with
      | true =>
        refine .inr (.inl ⟨rfl, state, rfl, rfl, ?_⟩)
        simp [State.show, hcontroller, showOverlay, hoverlay, hbox, OverlayEntry.controller]
      | false =>
        refine .inr (.inr (.inl ⟨rfl, rfl, ?_⟩))
        simp [State.show, hcontroller, showOverlay, hoverlay, hbox]

/-- Nothing has happened to the stream that is created next. -/
theorem State.Invariant.not_mem (h : s.Invariant) (effect : Effect)
    (he : effect.textController = s.created) : effect ∉ s.effects :=
  fun hmem => absurd (h.fresh effect hmem) (he ▸ Nat.lt_irrefl _)

/-- While there is no controller no entry is inserted. -/
theorem State.Invariant.not_inserted (h : s.Invariant) (hnone : s.controller = none)
    (entry : OverlayEntry) : ¬ Inserted s.effects entry := fun hentry => by
  rw [h.inserted entry hentry] at hnone
  cases hnone

/-- A new stream gets its text, and nothing is inserted. -/
theorem State.Invariant.create (h : s.Invariant) (hnone : s.controller = none) (text : String) :
    ({ s with created := s.created + 1 }.perform (.add s.created text)).Invariant where
  tidy := h.tidy.add (h.not_mem _ rfl)
  current _ hc := nomatch hnone.symm.trans hc
  inserted entry hentry := absurd (inserted_add.mp hentry) (h.not_inserted hnone entry)
  fresh := List.forall_mem_append.mpr ⟨fun e he => Nat.lt_succ_of_lt (h.fresh e he),
    List.forall_mem_singleton.mpr (Nat.lt_succ_self _)⟩

/-- `show` keeps the invariant. -/
theorem State.Invariant.show (h : s.Invariant) (context : BuildContext) (text : String) :
    (s.show context text).Invariant := by
  rcases s.show_cases context text with ⟨controller, hcontroller, hs⟩ |
    ⟨hnone, state, -, -, hs⟩ | ⟨hnone, -, hs⟩ | ⟨-, -, hs⟩ <;> rw [hs]
  · obtain ⟨entry, rfl, hentry, hopen⟩ := h.current controller hcontroller
    refine ⟨h.tidy.add hopen, fun c hc => ?_, fun e he => h.inserted e (inserted_add.mp he), ?_⟩
    · obtain ⟨e, rfl, he, hopen'⟩ := h.current c hc
      exact ⟨e, rfl, inserted_add.mpr he, by simpa [perform] using hopen'⟩
    · refine List.forall_mem_append.mpr ⟨h.fresh, List.forall_mem_singleton.mpr ?_⟩
      exact h.fresh (.insert entry) hentry.1
  · have hadded := h.create hnone text
    have hinsert : .insert ⟨state, s.created⟩ ∉ s.effects ++ [.add s.created text] := by
      simpa using h.not_mem (.insert ⟨state, s.created⟩) rfl
    have hremove : .remove ⟨state, s.created⟩ ∉ s.effects ++ [.add s.created text] := by
      simpa using h.not_mem (.remove ⟨state, s.created⟩) rfl
    have hothers : ∀ e, ¬ Inserted (s.effects ++ [.add s.created text]) e :=
      hadded.not_inserted hnone
    refine ⟨hadded.tidy.insert hothers hinsert hremove, ?_, fun e he => ?_, ?_⟩
    · rintro c hc
      obtain rfl := Option.some.inj hc
      refine ⟨_, rfl, (inserted_insert hremove).mpr (.inl rfl), ?_⟩
      simpa [perform, OverlayEntry.controller] using
        h.not_mem (.close s.created) rfl
    · rw [((inserted_insert hremove).mp he).resolve_right (hothers e)]
    · exact List.forall_mem_append.mpr
        ⟨hadded.fresh, List.forall_mem_singleton.mpr (Nat.lt_succ_self _)⟩
  · exact h.create hnone text
  · exact h

/-- `hide` removes the entry that is there, after it has closed its stream. -/
theorem State.Invariant.hide (h : s.Invariant) : s.hide.Invariant := by
  unfold State.hide
  cases hcontroller : s.controller with
  | none => exact ⟨h.tidy, nofun, fun e he => absurd he (h.not_inserted hcontroller e), h.fresh⟩
  | some controller =>
    obtain ⟨entry, rfl, hentry, -⟩ := h.current controller hcontroller
    have hmem : entry.textController < s.created := h.fresh (.insert entry) hentry.1
    refine ⟨h.tidy.close.remove (inserted_close.mpr hentry)
      (List.mem_append_right _ List.mem_cons_self), nofun, fun e he => ?_, ?_⟩
    · obtain ⟨hne, he'⟩ := inserted_remove.mp he
      exact absurd (h.tidy.one e entry (inserted_close.mp he') hentry) hne
    · exact List.forall_mem_append.mpr ⟨List.forall_mem_append.mpr
        ⟨h.fresh, List.forall_mem_singleton.mpr hmem⟩, List.forall_mem_singleton.mpr hmem⟩

/-- The invariant holds after any calls. -/
theorem invariant_after (calls : List Call) : (after calls).Invariant := by
  induction calls using List.reverseRecOn with
  | nil => exact State.invariant_initial
  | append_singleton calls call ih =>
    rw [after, List.foldl_concat]
    rcases call with ⟨context, text⟩ | _
    · exact ih.show context text
    · exact ih.hide

/-- An entry is inserted exactly while there is a controller. -/
theorem State.Invariant.exists_inserted_iff (h : s.Invariant) :
    (∃ entry, Inserted s.effects entry) ↔ s.controller.isSome := by
  constructor
  · rintro ⟨entry, hentry⟩
    rw [h.inserted entry hentry]
    rfl
  · intro hsome
    obtain ⟨controller, hcontroller⟩ := Option.isSome_iff_exists.mp hsome
    obtain ⟨entry, -, hentry, -⟩ := h.current controller hcontroller
    exact ⟨entry, hentry⟩

/-- After `show` in a mounted context there is a controller. -/
theorem State.controller_show {context : BuildContext} {text : String}
    (hmounted : (Call.show context text).Mounted) :
    (s.show context text).controller.isSome := by
  rcases s.show_cases context text with ⟨controller, hcontroller, hs⟩ |
    ⟨-, state, -, -, hs⟩ | ⟨-, hbox, -⟩ | ⟨-, hoverlay, -⟩
  · rw [hs]
    exact Option.isSome_iff_exists.mpr ⟨controller, hcontroller⟩
  · rw [hs]
    rfl
  · exact absurd (hbox.symm.trans hmounted.2) Bool.false_ne_true
  · rw [Call.Mounted, hoverlay] at hmounted
    cases hmounted.1

theorem State.controller_hide : s.hide.controller = none := by
  unfold State.hide
  cases s.controller <;> rfl

/-- Where all calls had a mounted context, there is a controller exactly if the last one was `show`.
-/
theorem controller_after {calls : List Call} (hmounted : ∀ call ∈ calls, call.Mounted) :
    (after calls).controller.isSome ↔ ∃ call, calls.getLast? = some call ∧ call.Shows := by
  rcases List.eq_nil_or_concat calls with rfl | ⟨before, call, rfl⟩
  · exact iff_of_false nofun (by simp)
  · rw [List.concat_eq_append] at hmounted ⊢
    rw [List.getLast?_concat, after, List.foldl_concat]
    rcases call with ⟨context, text⟩ | _
    · exact iff_of_true (State.controller_show (hmounted _ (by simp))) ⟨_, rfl, trivial⟩
    · refine iff_of_false ?_ ?_
      · rw [State.step, State.controller_hide]
        exact Bool.false_ne_true
      · rintro ⟨call, hcall, hshows⟩
        cases hcall
        exact hshows

end Calls

/-- After any calls everything is tidy, and where they all had a mounted context, an entry is
inserted exactly if the last call was `show`. -/
theorem tidy_after (calls : List Call) :
    Tidy (after calls).effects ∧ ((∀ call ∈ calls, call.Mounted) →
      ((∃ entry, Inserted (after calls).effects entry) ↔
        ∃ call, calls.getLast? = some call ∧ call.Shows)) := by
  have hinv := invariant_after calls
  refine ⟨hinv.tidy, fun hmounted => ?_⟩
  rw [hinv.exists_inserted_iff, controller_after hmounted]

/-- Shown twice and hidden twice, the loading screen has inserted and removed one entry. -/
theorem tidy_after_shown_twice :
    let calls := [.show ⟨some 0, true⟩ "a", .show ⟨some 0, true⟩ "b", .hide, .hide]
    (after calls).effects = [.add 0 "a", .insert ⟨0, 0⟩, .add 0 "b", .close 0, .remove ⟨0, 0⟩] ∧
      ¬ ∃ entry, Inserted (after calls).effects entry := by
  refine ⟨by decide, fun hentry => ?_⟩
  obtain ⟨call, hcall, hshows⟩ := ((tidy_after _).2 (by simp [Call.Mounted])).mp hentry
  cases hcall
  exact hshows

end LoadingScreen

namespace IndexScreen

open LoadingScreen

/-- The listener of `isLoadingProvider`, with the default text. -/
def onLoading (context : BuildContext) (isLoading : Bool) : LoadingScreen.Call :=
  if isLoading then .show context "Loading..." else .hide

/-- While the provider's last value is `true`, and only then, the loading screen is shown. -/
theorem inserted_iff (context : BuildContext) (hoverlay : context.overlay.isSome)
    (hbox : context.hasRenderBox) (values : List Bool) :
    (∃ entry, Inserted (after (values.map (onLoading context))).effects entry) ↔
      values.getLast? = some true := by
  have hmounted : ∀ call ∈ values.map (onLoading context), call.Mounted := by
    intro call hcall
    obtain ⟨isLoading, -, rfl⟩ := List.mem_map.mp hcall
    cases isLoading with
    | false => trivial
    | true => exact ⟨hoverlay, hbox⟩
  have hinv := invariant_after (values.map (onLoading context))
  rw [hinv.exists_inserted_iff, controller_after hmounted, List.getLast?_map]
  cases values.getLast? with
  | none => simp
  | some isLoading => cases isLoading <;> simp [onLoading, LoadingScreen.Call.Shows]

end IndexScreen

end TekkGram
