import TekkGram.Interaction.Since
import TekkGram.Model.Working
import TekkGram.Notifiers.Comments

/-!
# PostCommentsView

A reply tap puts the user's name into the text and remembers the user. A comment whose text starts
with `@` is submitted as a reply to the remembered user. The handlers that should forget the user
compare with `null` instead of assigning it, so that a user is remembered until the next tap.
-/

namespace TekkGram

open Interaction

namespace PostCommentsView

/-- What the view keeps: its text, whether it can be sent, and the remembered user. -/
structure State where
  text : String
  hasText : Bool
  repliedUserModel : Option UserInfoModel
  deriving DecidableEq, Repr

/-- The view as it opens. -/
def State.initial : State := ⟨"", false, none⟩

/-- The two ways to submit a comment. -/
inductive Source where
  | keyboard
  | button
  deriving DecidableEq, Repr

/-- What happens on the view. The reply button of a comment is shown once its user is loaded. -/
inductive Event where
  | tapReply (user : UserInfoModel)
  | edit (text : String)
  | submit (source : Source)
  | ended (isSent : Bool)
  deriving DecidableEq, Repr

/-- An event is a reply tap. -/
def Event.IsTap : Event → Prop
  | .tapReply _ => True
  | _ => False

/-- The text with the listener of its controller. -/
def State.setText (s : State) (text : String) : State :=
  { s with text := text, hasText := !text.isEmpty }

/-- `replaceAll(" ", "")`. -/
def withoutSpaces (s : String) : String := .ofList (s.toList.filter (· ≠ ' '))

/-- The handler of an event. A submission does not change the view: where it should forget the user
it compares with `null`. A sent comment clears the text. -/
def State.step (s : State) : Event → State
  | .tapReply user =>
    { s.setText ("@" ++ withoutSpaces user.displayName) with repliedUserModel := some user }
  | .edit text => s.setText text
  | .submit _ => s
  | .ended isSent => if isSent then s.setText "" else s

/-- The view after these events. -/
def after (events : List Event) : State := events.foldl State.step .initial

/-- The text starts with `@`. -/
def StartsWithAt (text : String) : Prop := text.toList.head? = some '@'

instance (text : String) : Decidable (StartsWithAt text) := by
  unfold StartsWithAt
  infer_instance

/-- The arguments of a submission. -/
structure Submission where
  fromUserId : UserId
  onPostId : PostId
  comment : String
  repliedUserName : String
  repliedUserId : UserId
  deriving DecidableEq, Repr

/-- The call of a submission. -/
def Submission.body (sub : Submission) : Action Unit Bool :=
  SendCommentNotifier.sendComment sub.fromUserId sub.onPostId sub.comment sub.repliedUserName
    sub.repliedUserId

/-- `_submitCommentWithController`, up to its call; nobody submits while signed out. -/
def submitCommentWithController (onPostId : PostId) (userId : Option UserId) (text : String)
    (userData : Option UserInfoModel) : Option Submission :=
  userId.map fun fromUserId =>
    { fromUserId, onPostId, comment := text
      repliedUserName := match userData with
        | none => ""
        | some user => if StartsWithAt text then user.displayName else ""
      repliedUserId := match userData with
        | none => ""
        | some user => if StartsWithAt text then user.userId else "" }

/-- What a submission calls: by keyboard with a text, and by the button while it is enabled. -/
def State.submission (s : State) (onPostId : PostId) (userId : Option UserId) :
    Source → Option Submission
  | .keyboard =>
    if s.text.isEmpty then none
    else submitCommentWithController onPostId userId s.text s.repliedUserModel
  | .button =>
    if s.hasText then submitCommentWithController onPostId userId s.text s.repliedUserModel
    else none

/-- The last reply tap was on a comment by this user. -/
def LastTap (user : UserInfoModel) (past : List Event) : Prop :=
  Since (fun _ e => e = .tapReply user) (fun e => ¬ e.IsTap) past

/-- The last reply tap was on a comment by this user, and no submission has succeeded since. -/
def ReplyingTo (user : UserInfoModel) (past : List Event) : Prop :=
  Since (fun _ e => e = .tapReply user) (fun e => ¬ e.IsTap ∧ e ≠ .ended true) past

/-- A comment is stored as a reply to nobody, or to the user that it replies to. -/
def Attributed (past : List Event) (text : String) (d : Doc) : Prop :=
  (d.field FirebaseFieldName.repliedUserId = .string "" ∧
    d.field FirebaseFieldName.repliedUser = .string "") ∨
  ∃ user, ReplyingTo user past ∧ StartsWithAt text ∧
    d.field FirebaseFieldName.repliedUserId = .string user.userId ∧
    d.field FirebaseFieldName.repliedUser = .string user.displayName

section LastTap

variable {user user' : UserInfoModel} {past : List Event}

/-- The view remembers the user of the last tap. -/
theorem repliedUserModel_after (past : List Event) :
    (after past).repliedUserModel = some user ↔ LastTap user past := by
  induction past using List.reverseRecOn with
  | nil => exact iff_of_false nofun not_since_nil
  | append_singleton past e ih =>
    rw [after, List.foldl_append, List.foldl_cons, List.foldl_nil, LastTap, since_snoc]
    change ((after past).step e).repliedUserModel = some user ↔ _ ∨ LastTap user past ∧ _
    cases e with
    | tapReply user' => simp [State.step, Event.IsTap]
    | edit text => simpa [State.step, State.setText, Event.IsTap] using ih
    | submit source => simpa [State.step, Event.IsTap] using ih
    | ended isSent => cases isSent <;> simpa [State.step, State.setText, Event.IsTap] using ih

/-- Whom the view replies to is whom the last tap was on. -/
theorem ReplyingTo.lastTap (h : ReplyingTo user past) : LastTap user past := by
  obtain ⟨before, e, later, rfl, he, hlater⟩ := h
  exact ⟨before, e, later, rfl, he, fun y hy => (hlater y hy).1⟩

/-- There is one last tap. -/
theorem LastTap.unique (h : LastTap user past) (h' : LastTap user' past) : user = user' :=
  Option.some.inj (((repliedUserModel_after past).mpr h).symm.trans
    ((repliedUserModel_after past).mpr h'))

/-- After a submission has succeeded, the view replies to nobody until the next tap. -/
theorem not_replyingTo_of_ended {since : List Event} (h : ∀ e ∈ since, ¬ e.IsTap) :
    ¬ ReplyingTo user (past ++ .ended true :: since) := by
  induction since using List.reverseRecOn with
  | nil =>
    rw [ReplyingTo, since_snoc]
    rintro (he | ⟨-, -, hne⟩)
    · cases he
    · exact hne rfl
  | append_singleton since e ih =>
    rw [ReplyingTo, ← List.cons_append, ← List.append_assoc, since_snoc]
    rintro (rfl | ⟨hbefore, -⟩)
    · exact h (.tapReply user) (by simp) trivial
    · exact ih (fun e he => h e (List.mem_append_left _ he)) hbefore

end LastTap

/-- The user to whom a submission from the view is a reply. -/
theorem State.submission_eq {s : State} {onPostId : PostId} {userId : Option UserId}
    {source : Source} {sub : Submission} (h : s.submission onPostId userId source = some sub) :
    sub.comment = s.text ∧
      ((∃ user, s.repliedUserModel = some user ∧ StartsWithAt s.text ∧
          sub.repliedUserId = user.userId ∧ sub.repliedUserName = user.displayName) ∨
        ((s.repliedUserModel = none ∨ ¬ StartsWithAt s.text) ∧
          sub.repliedUserId = "" ∧ sub.repliedUserName = "")) := by
  have hcall :
      submitCommentWithController onPostId userId s.text s.repliedUserModel = some sub := by
    cases source <;> simp only [State.submission] at h <;> split at h
    · cases h
    · exact h
    · exact h
    · cases h
  obtain ⟨fromUserId, -, rfl⟩ := Option.map_eq_some_iff.mp hcall
  refine ⟨rfl, ?_⟩
  cases hreplied : s.repliedUserModel with
  | none => exact .inr ⟨.inl rfl, rfl, rfl⟩
  | some user =>
    by_cases hat : StartsWithAt s.text
    · exact .inl ⟨user, rfl, hat, if_pos hat, if_pos hat⟩
    · exact .inr ⟨.inr hat, if_neg hat, if_neg hat⟩

/-- What a submission stores. -/
theorem Submission.stored {sub : Submission} {w w' : World} {tr : List AppEvent}
    {out : Except Exc Bool × Unit} {id : CommentId} {d : Doc}
    (h : Runs World.step w (sub.body ()) tr out w') (hnew : id ∉ w.firestore .comments)
    (hd : (w'.firestore .comments)[id]? = some d) :
    d.field FirebaseFieldName.repliedUserId = .string sub.repliedUserId ∧
      d.field FirebaseFieldName.repliedUser = .string sub.repliedUserName := by
  have hnone := Std.ExtTreeMap.getElem?_eq_none hnew
  rcases Async.wp.elim (SendCommentNotifier.sendComment_spec _ _ _ _ _ () w) h with
    ⟨-, hsame⟩ | ⟨id', t, -, -, rfl⟩
  · rw [hsame, hnone] at hd
    cases hd
  · rw [World.setLoading_firestore, World.setDoc_firestore, Function.update_self,
      Collection.getElem?_insert] at hd
    by_cases hid : id' = id
    · rw [if_pos hid] at hd
      cases hd
      exact ⟨rfl, rfl⟩
    · rw [if_neg hid, World.setLoading_firestore, hnone] at hd
      cases hd

/-- A submitted comment is stored with the right user exactly when it does not start with `@`, or
no reply was ever tapped, or no submission has succeeded since the last reply tap, or the id and the
name of the user of that tap are empty. -/
theorem attributed_iff {past : List Event} {onPostId : PostId} {userId : Option UserId}
    {source : Source} {sub : Submission} {w w' : World} {tr : List AppEvent}
    {out : Except Exc Bool × Unit} {id : CommentId} {d : Doc}
    (hsub : (after past).submission onPostId userId source = some sub)
    (h : Runs World.step w (sub.body ()) tr out w') (hnew : id ∉ w.firestore .comments)
    (hd : (w'.firestore .comments)[id]? = some d) :
    Attributed past sub.comment d ↔ ¬ StartsWithAt sub.comment ∨ (∀ user, ¬ LastTap user past) ∨
      (∃ user, ReplyingTo user past) ∨
      ∃ user, LastTap user past ∧ user.userId = "" ∧ user.displayName = "" := by
  obtain ⟨hid, hname⟩ := Submission.stored h hnew hd
  obtain ⟨htext, hreply⟩ := State.submission_eq hsub
  unfold Attributed
  simp only [hid, hname, Value.string_inj, htext]
  rcases hreply with ⟨user, hreplied, hat, hu, hn⟩ | ⟨hnobody, hu, hn⟩
  · have hlast := (repliedUserModel_after past).mp hreplied
    rw [hu, hn]
    constructor
    · rintro (hempty | ⟨user', hreplying, -⟩)
      · exact .inr (.inr (.inr ⟨user, hlast, hempty⟩))
      · exact .inr (.inr (.inl ⟨user', hreplying⟩))
    · rintro (hnot | hnone | ⟨user', hreplying⟩ | ⟨user', hlast', hempty⟩)
      · exact absurd hat hnot
      · exact absurd hlast (hnone user)
      · obtain rfl := hreplying.lastTap.unique hlast
        exact .inr ⟨user', hreplying, hat, rfl, rfl⟩
      · obtain rfl := hlast'.unique hlast
        exact .inl hempty
  · refine iff_of_true (.inl ⟨hu, hn⟩) ?_
    rcases hnobody with hnone | hnot
    · refine .inr (.inl fun user hlast => ?_)
      cases hnone.symm.trans ((repliedUserModel_after past).mpr hlast)
    · exact .inl hnot

/-- A user to reply to. -/
def someReplied : UserInfoModel := ⟨"v", "V", none, none, none⟩

/-- A reply right after its tap is stored as one. -/
theorem attributed_iff_reply : ∃ sub d,
    (after [.tapReply someReplied]).submission "p" (some "u") .button = some sub ∧
    d.field FirebaseFieldName.repliedUserId = .string "v" ∧
    Attributed [.tapReply someReplied] sub.comment d := by
  have hexec : ((Submission.body ⟨"u", "p", "@V", "V", "v"⟩ ()).exec World.step World.working 0
      World.initial).any (fun r => ((r.2.2.firestore .comments)["1"]?).isSome) = true := by
    decide +kernel
  obtain ⟨tr, out, w', hrun, hstored⟩ := Program.exec_any hexec
  obtain ⟨d, hd⟩ := Option.isSome_iff_exists.mp hstored
  have hnew : "1" ∉ World.initial.firestore .comments := Std.ExtTreeMap.not_mem_empty
  have hsub : (after [.tapReply someReplied]).submission "p" (some "u") .button =
      some ⟨"u", "p", "@V", "V", "v"⟩ := by decide +kernel
  have hreplying : ReplyingTo someReplied [.tapReply someReplied] :=
    ⟨[], .tapReply someReplied, [], rfl, rfl, List.forall_mem_nil _⟩
  exact ⟨_, d, hsub, (Submission.stored hrun hnew hd).1,
    (attributed_iff hsub hrun hnew hd).mpr (.inr (.inr (.inl ⟨someReplied, hreplying⟩)))⟩

/-- A comment that starts with `@` after a reply was sent is stored as a reply to the same user. -/
theorem not_attributed_after_success : ∃ past sub tr out w' id d,
    past = [.tapReply someReplied, .submit .button, .ended true, .edit "@home"] ∧
    (after past).submission "p" (some "u") .button = some sub ∧
    Runs World.step World.initial (sub.body ()) tr out w' ∧
    id ∉ World.initial.firestore .comments ∧ (w'.firestore .comments)[id]? = some d ∧
    ¬ Attributed past sub.comment d := by
  have hexec : ((Submission.body ⟨"u", "p", "@home", "V", "v"⟩ ()).exec World.step World.working 0
      World.initial).any (fun r => ((r.2.2.firestore .comments)["1"]?).isSome) = true := by
    decide +kernel
  obtain ⟨tr, out, w', hrun, hstored⟩ := Program.exec_any hexec
  obtain ⟨d, hd⟩ := Option.isSome_iff_exists.mp hstored
  have hnew : "1" ∉ World.initial.firestore .comments := Std.ExtTreeMap.not_mem_empty
  have hsub : (after [.tapReply someReplied, .submit .button, .ended true,
      .edit "@home"]).submission "p" (some "u") .button =
      some ⟨"u", "p", "@home", "V", "v"⟩ := by decide +kernel
  have hnobody : ∀ user, ¬ ReplyingTo user
      ([.tapReply someReplied, .submit .button] ++ .ended true :: [.edit "@home"]) :=
    fun user => not_replyingTo_of_ended (by simp [Event.IsTap])
  refine ⟨_, _, tr, out, w', "1", d, rfl, hsub, hrun, hnew, hd, ?_⟩
  rintro (⟨hid, -⟩ | ⟨user, hreplying, -⟩)
  · have hv := (Submission.stored hrun hnew hd).1.symm.trans hid
    exact absurd (Value.string_inj.mp hv) (by decide)
  · exact hnobody user hreplying

end PostCommentsView

end TekkGram
