import TekkGram.Interaction.Events
import TekkGram.Model.Strings
import TekkGram.Users.Profiles

/-!
# UserProfileView

The view shows the profile of the user and edits its name and its phone, each in a text field that
comes and goes with the edit mode. The text of a field is set once, when the first profile arrives,
and stays as it was typed when later profiles arrive. Each field has two handlers that compare the
text with a stored value before they update the profile.
-/

namespace TekkGram.UserProfileView

open Interaction Async

/-- The two fields that are edited. -/
inductive Field where
  | name
  | phone
  deriving DecidableEq, Repr

/-- The key under which a field is stored. -/
def Field.key : Field → String
  | .name => FirebaseFieldName.displayName
  | .phone => FirebaseFieldName.phone

/-- What the view keeps once a profile has arrived: the last one, and the texts of the fields. -/
structure Data where
  userInfoModel : UserInfoModel
  nameController : String
  phoneController : String
  deriving DecidableEq, Repr

/-- The text of a field. -/
def Data.text (d : Data) : Field → String
  | .name => d.nameController
  | .phone => d.phoneController

/-- The stored value of a field. -/
def Data.stored (d : Data) : Field → Option String
  | .name => some d.userInfoModel.displayName
  | .phone => d.userInfoModel.phone

/-- The arguments of `updateUserInfo`. -/
structure UpdateUserInfo where
  userId : UserId
  displayName : String
  phone : Option String
  imageUrl : Option String
  deriving DecidableEq, Repr

/-- What the notifier does on a call. -/
def UpdateUserInfo.body (c : UpdateUserInfo) : Action Unit Bool :=
  AuthStateNotifier.updateUserInfo c.userId c.displayName c.phone c.imageUrl

/-- The profile with another value of one field. -/
def updateOf (userInfoModel : UserInfoModel) (value : String) : Field → UpdateUserInfo
  | .name => ⟨userInfoModel.userId, value, userInfoModel.phone, userInfoModel.imageUrl⟩
  | .phone =>
    ⟨userInfoModel.userId, userInfoModel.displayName, some value, userInfoModel.imageUrl⟩

/-- What all handlers do with the text of their field: unless it is empty, or trimmed as a value is,
the profile is updated with the trimmed text. -/
def Data.confirm (d : Data) (field : Field) (compared : Option String) :
    Option (Field × UpdateUserInfo) :=
  if d.text field ≠ "" then
    if some (Dart.trim (d.text field)) ≠ compared.map Dart.trim then
      some (field, updateOf d.userInfoModel (Dart.trim (d.text field)) field)
    else none
  else none

/-- What the handler of a submission compares the text with. The name is compared with the phone. -/
def Data.submitCompared (d : Data) : Field → Option String
  | .name => d.userInfoModel.phone
  | .phone => d.userInfoModel.phone

/-- What the handler of an icon compares the text with. -/
def Data.tapCompared (d : Data) : Field → Option String
  | .name => some d.userInfoModel.displayName
  | .phone => d.userInfoModel.phone

/-- The handler `onSubmitted` of a field. -/
def Data.onSubmitted (d : Data) (field : Field) : Option (Field × UpdateUserInfo) :=
  d.confirm field (d.submitCompared field)

/-- The handler `onTap` of the icon of a field. It does not look at the edit mode. -/
def Data.onTap (d : Data) (field : Field) : Option (Field × UpdateUserInfo) :=
  d.confirm field (d.tapCompared field)

/-- The view: which fields are in edit mode, and its data. -/
structure State where
  editName : Bool
  editPhone : Bool
  data : Option Data
  deriving DecidableEq, Repr

/-- No profile has arrived. -/
def State.initial : State := ⟨false, false, none⟩

/-- What happens: a profile arrives, or the user taps an icon, types, or submits by keyboard. -/
inductive Event where
  | profile (userInfoModel : UserInfoModel)
  | tap (field : Field)
  | type (field : Field) (text : String)
  | submit (field : Field)
  deriving DecidableEq, Repr

/-- The field is in edit mode: it has a text field, and its icon is a check mark. -/
def State.editing (s : State) : Field → Bool
  | .name => s.editName
  | .phone => s.editPhone

/-- What is on the screen. Showing a phone that is missing throws. -/
def State.onScreen (s : State) : Option Data :=
  s.data.filter fun d => s.editPhone || d.userInfoModel.phone.isSome

/-- The edit mode is switched. -/
def State.toggle (s : State) : Field → State
  | .name => { s with editName := !s.editName }
  | .phone => { s with editPhone := !s.editPhone }

/-- A profile arrives. The texts are set by the first one only. -/
def State.arrive (s : State) (userInfoModel : UserInfoModel) : State :=
  match s.data with
  | none =>
    { s with
      data := some ⟨userInfoModel, userInfoModel.displayName, userInfoModel.phone.getD ""⟩ }
  | some d => { s with data := some { d with userInfoModel } }

/-- Text is typed into a field. -/
def Data.setText (d : Data) (text : String) : Field → Data
  | .name => { d with nameController := text }
  | .phone => { d with phoneController := text }

/-- The view after an event. -/
def State.step (s : State) : Event → State
  | .profile userInfoModel => s.arrive userInfoModel
  | .tap field => if s.onScreen.isSome then s.toggle field else s
  | .type field text =>
    if s.onScreen.isSome && s.editing field then
      { s with data := s.data.map fun d => d.setText text field }
    else s
  | .submit _ => s

/-- The call of `updateUserInfo` at an event, with the field whose handler makes it. -/
def State.call (s : State) : Event → Option (Field × UpdateUserInfo)
  | .tap field => s.onScreen.bind fun d => d.onTap field
  | .submit field => if s.editing field then s.onScreen.bind fun d => d.onSubmitted field else none
  | _ => none

/-- The view after these events. -/
def after (events : List Event) : State := events.foldl State.step .initial

/-- The text of a field, trimmed, is neither blank nor the stored value. -/
def Data.Changed (d : Data) (field : Field) : Prop :=
  Dart.trim (d.text field) ≠ "" ∧
    some (Dart.trim (d.text field)) ≠ (d.stored field).map Dart.trim

/-- The event confirms a change of the field: it submits its text or taps its check mark. -/
def State.Confirms (s : State) (field : Field) (e : Event) : Prop :=
  (e = .submit field ∨ e = .tap field) ∧ s.editing field = true ∧
    ∃ d, s.onScreen = some d ∧ d.Changed field

/-- The profile is updated for a field exactly at the events that confirm a change of it. -/
def State.UpdatesOnConfirm (s : State) (e : Event) : Prop :=
  ∀ field, (∃ c, s.call e = some (field, c)) ↔ s.Confirms field e

/-- Comparing with this value and not with the stored one makes no difference for a text. A blank
text is taken for a change unless it is empty or the value compared with is blank. -/
def Data.SameChange (d : Data) (field : Field) (compared : Option String) : Prop :=
  if Dart.trim (d.text field) = "" then d.text field = "" ∨ compared.map Dart.trim = some ""
  else some (Dart.trim (d.text field)) = compared.map Dart.trim ↔
    some (Dart.trim (d.text field)) = (d.stored field).map Dart.trim

/-- An event at which the handlers do what they should. A pencil does so where the text is still
the stored value, or empty. -/
def State.Proper (s : State) : Event → Prop
  | .tap field => ∀ d, s.onScreen = some d →
      if s.editing field then d.SameChange field (d.tapCompared field)
      else d.text field = "" ∨ some (Dart.trim (d.text field)) = (d.stored field).map Dart.trim
  | .submit field => s.editing field = true → ∀ d, s.onScreen = some d →
      d.SameChange field (d.submitCompared field)
  | _ => True

section Handlers

variable {s : State} {e : Event} {d : Data} {field field' : Field} {compared : Option String}
  {c : UpdateUserInfo}

/-- A handler makes its call for its own field, with the trimmed text. -/
theorem Data.confirm_eq_some_iff : d.confirm field compared = some (field', c) ↔
    (d.text field ≠ "" ∧ some (Dart.trim (d.text field)) ≠ compared.map Dart.trim) ∧
      field = field' ∧ updateOf d.userInfoModel (Dart.trim (d.text field)) field = c := by
  unfold Data.confirm
  split
  · rename_i hne
    split
    · rename_i hchanged
      rw [Option.some.injEq, Prod.mk.injEq]
      exact ⟨fun h => ⟨⟨hne, hchanged⟩, h⟩, fun h => h.2⟩
    · rename_i hsame
      exact iff_of_false nofun fun h => hsame h.1.2
  · rename_i hempty
    exact iff_of_false nofun fun h => hempty h.1.1

theorem Data.tapCompared_eq : d.tapCompared field = d.stored field := by
  cases field <;> rfl

/-- A call is made at a tap or a submission, for its field, and passes the trimmed text. -/
theorem State.call_eq_some (h : s.call e = some (field, c)) :
    (e = .submit field ∨ e = .tap field) ∧ ∃ d, s.onScreen = some d ∧
      c = updateOf d.userInfoModel (Dart.trim (d.text field)) field := by
  cases e with
  | profile userInfoModel => cases h
  | type field' text => cases h
  | tap field' =>
    obtain ⟨d, hd, hcall⟩ := Option.bind_eq_some_iff.mp h
    obtain ⟨-, rfl, rfl⟩ := Data.confirm_eq_some_iff.mp hcall
    exact ⟨.inr rfl, d, hd, rfl⟩
  | submit field' =>
    change (if s.editing field' = true then _ else none) = _ at h
    split at h
    · obtain ⟨d, hd, hcall⟩ := Option.bind_eq_some_iff.mp h
      obtain ⟨-, rfl, rfl⟩ := Data.confirm_eq_some_iff.mp hcall
      exact ⟨.inl rfl, d, hd, rfl⟩
    · cases h

/-- Only the field of the event matters. -/
theorem State.updatesOnConfirm_iff_field (he : e = .submit field ∨ e = .tap field) :
    s.UpdatesOnConfirm e ↔ ((∃ c, s.call e = some (field, c)) ↔ s.Confirms field e) := by
  refine ⟨fun h => h field, fun h field' => ?_⟩
  by_cases hfield : field' = field
  · rw [hfield]
    exact h
  · have hother : ¬ (e = .submit field' ∨ e = .tap field') := by
      rcases he with rfl | rfl
      · rintro (h' | h')
        · exact hfield (Event.submit.inj h').symm
        · cases h'
      · rintro (h' | h')
        · cases h'
        · exact hfield (Event.tap.inj h').symm
    refine iff_of_false ?_ fun hconfirms => hother hconfirms.1
    rintro ⟨c, hcall⟩
    exact hother (State.call_eq_some hcall).1

/-- A handler takes a text for a change where it should, exactly if what it compares with makes no
difference. -/
theorem Data.changed_iff_sameChange :
    ((d.text field ≠ "" ∧ some (Dart.trim (d.text field)) ≠ compared.map Dart.trim) ↔
      d.Changed field) ↔ d.SameChange field compared := by
  unfold Data.Changed Data.SameChange
  have hempty : d.text field = "" → Dart.trim (d.text field) = "" := by
    intro h
    rw [h]
    decide
  split
  · rename_i hblank
    rw [hblank]
    simp only [ne_eq, not_true_eq_false, false_and, iff_false, not_and, Decidable.not_not]
    rw [Decidable.imp_iff_not_or, Decidable.not_not, eq_comm (a := some "")]
  · rename_i hblank
    have hne : d.text field ≠ "" := fun h => hblank (hempty h)
    simp only [ne_eq, hne, hblank, not_false_eq_true, true_and]
    exact not_iff_not

/-- The handler of a field calls for it exactly if it takes its text for a change. -/
theorem Data.exists_confirm_iff : (∃ c, d.confirm field compared = some (field, c)) ↔
    d.text field ≠ "" ∧ some (Dart.trim (d.text field)) ≠ compared.map Dart.trim := by
  simp only [Data.confirm_eq_some_iff, true_and, exists_and_left, exists_eq', and_true]

end Handlers

/-- An event updates the profile exactly where it should if and only if it is proper. -/
theorem updatesOnConfirm_iff (s : State) (e : Event) : s.UpdatesOnConfirm e ↔ s.Proper e := by
  cases e with
  | profile userInfoModel =>
    refine iff_of_true (fun field => iff_of_false nofun ?_) trivial
    rintro ⟨h | h, -⟩ <;> cases h
  | type field' text =>
    refine iff_of_true (fun field => iff_of_false nofun ?_) trivial
    rintro ⟨h | h, -⟩ <;> cases h
  | tap field =>
    rw [State.updatesOnConfirm_iff_field (.inr rfl)]
    simp only [State.call, State.Confirms, State.Proper, or_true, true_and]
    cases hscreen : s.onScreen with
    | none => simp
    | some d =>
      simp only [Option.bind_some, Data.onTap, Data.exists_confirm_iff, Option.some.injEq,
        exists_eq_left', forall_eq']
      cases hediting : s.editing field with
      | true =>
        simp only [true_and, if_true]
        exact Data.changed_iff_sameChange
      | false =>
        -- a pencil should do nothing, and does so unless the text differs from the stored value
        simp only [Bool.false_eq_true, false_and, iff_false, if_false, Data.tapCompared_eq]
        rw [not_and_or, not_not, not_not]
  | submit field =>
    rw [State.updatesOnConfirm_iff_field (.inl rfl)]
    simp only [State.call, State.Confirms, State.Proper, true_or, true_and]
    cases hediting : s.editing field with
    | false => simp
    | true =>
      cases hscreen : s.onScreen with
      | none => simp
      | some d =>
        simp only [if_true, Option.bind_some, Data.onSubmitted, Data.exists_confirm_iff,
          Option.some.injEq, exists_eq_left', forall_eq', true_and, forall_const]
        exact Data.changed_iff_sameChange

/-- Confirming a change properly writes the trimmed text under the key of its field, to the profile
on the screen and to no other one. -/
theorem confirms_writes {W : Type} {env : Environment W (Fallible Exc Ans)} {s : State}
    {field : Field} {e : Event} (h : s.Confirms field e) (hproper : s.Proper e) (w : W) :
    ∃ c d, s.call e = some (field, c) ∧ s.onScreen = some d ∧
      c.body.wp env (fun tr _ _ _ => Throughout (ProfileWrite d.userInfoModel.userId fun _ fields =>
        fields.field field.key = .string (Dart.trim (d.text field))) tr) () w := by
  obtain ⟨c, hcall⟩ := ((updatesOnConfirm_iff s e).mpr hproper field).mpr h
  obtain ⟨-, d, hd, hargs⟩ := State.call_eq_some hcall
  refine ⟨c, d, hcall, hd, ?_⟩
  refine wp_mono (AuthStateNotifier.updateUserInfo_writes c.userId c.displayName c.phone c.imageUrl
    () w) fun tr _ _ _ hwrites => ?_
  have huser : c.userId = d.userInfoModel.userId := by
    rw [hargs]
    cases field <;> rfl
  rw [← huser]
  refine hwrites.mono fun _ _ hwrite => hwrite.mono ?_
  rintro fields ⟨email, rfl⟩
  rw [hargs]
  cases field <;> rfl

/-- In every run, the profile is updated for a field exactly at the events that confirm a change of
it if and only if every event of the run is proper. -/
theorem updatesOnConfirm_throughout_iff (events : List Event) :
    Throughout (fun before e => (after before).UpdatesOnConfirm e) events ↔
      Throughout (fun before e => (after before).Proper e) events := by
  constructor
  · intro h
    exact h.mono fun before e => (updatesOnConfirm_iff (after before) e).mp
  · intro h
    exact h.mono fun before e => (updatesOnConfirm_iff (after before) e).mpr

/-- Submitting the stored name as it is updates the profile. -/
theorem not_updatesOnConfirm_of_submit : ¬ Throughout
    (fun before e => (after before).UpdatesOnConfirm e)
    [.profile ⟨"u", "Ann", none, some "555", none⟩, .tap .name, .submit .name] := by
  intro h
  have hlaw := h [.profile ⟨"u", "Ann", none, some "555", none⟩, .tap .name] (.submit .name) [] rfl
  obtain ⟨-, -, d, hd, hchanged⟩ := (hlaw .name).mp ⟨⟨"u", "Ann", some "555", none⟩, by decide⟩
  obtain rfl : ⟨⟨"u", "Ann", none, some "555", none⟩, "Ann", "555"⟩ = d := Option.some.inj hd
  exact hchanged.2 rfl

end TekkGram.UserProfileView
