import TekkGram.Model.Strings
import TekkGram.Views.PostCommentsView

/-!
# The text of a comment

A comment is shown word by word. Every word that starts with `@` and goes on is taken for the
mention of the user who is replied to, and that user's name stands in its place. The name is empty
where the comment replies to nobody, so that such a word is not shown at all.
-/

namespace TekkGram.CommentMessageView

open PostCommentsView

/-- A piece of rich text; a tap on it may open a profile. -/
structure TextSpan where
  text : String
  recognizer : Option UserId
  deriving DecidableEq, Repr

/-- A word that is taken for a mention. -/
def IsMention (w : String) : Prop := StartsWithAt w ∧ 1 < Dart.length w

instance (w : String) : Decidable (IsMention w) := by
  unfold IsMention
  infer_instance

/-- The words of a comment. -/
def words (comment : Comment) : List String := Dart.split comment.comment ' '

/-- The text shown for a word of a comment. -/
def spanText (repliedUserName w : String) : String :=
  if IsMention w then repliedUserName else " " ++ w

/-- The piece shown for a word of a comment. -/
def span (comment : Comment) (w : String) : TextSpan where
  text := spanText comment.repliedUserName w
  recognizer := if IsMention w then some comment.repliedUserId else none

/-- The rich text of a comment; there is none for the empty comment. -/
def build (comment : Comment) : Option (List TextSpan) :=
  if comment.comment = "" then none else some ((words comment).map (span comment))

/-- The first word of a reply gives way to the name if it is the mention; every other word is shown
as it is written. -/
def replyTexts (repliedUserName : String) : List String → List String
  | [] => []
  | first :: rest =>
    (if IsMention first then repliedUserName else " " ++ first) :: rest.map (" " ++ ·)

/-- What is shown loses no word of the comment; nothing is shown only for the empty comment. -/
def LosesNoWord (comment : Comment) : Option (List TextSpan) → Prop
  | none => comment.comment = ""
  | some spans =>
    if comment.repliedUserName = "" then
      String.join (spans.map TextSpan.text) = " " ++ comment.comment
    else spans.map TextSpan.text = replyTexts comment.repliedUserName (words comment)

instance (comment : Comment) (shown : Option (List TextSpan)) :
    Decidable (LosesNoWord comment shown) := by
  unfold LosesNoWord
  split <;> infer_instance

/-- Nothing but the first word of a reply is a mention. A later one does no harm if the name is what
the view shows for it. -/
def MentionsInPlace (comment : Comment) : Prop :=
  if comment.repliedUserName = "" then ∀ w ∈ words comment, ¬IsMention w
  else ∀ w ∈ (words comment).tail, IsMention w → comment.repliedUserName = " " ++ w

theorem text_span (comment : Comment) (ws : List String) :
    (ws.map (span comment)).map TextSpan.text = ws.map (spanText comment.repliedUserName) :=
  List.map_map

/-- Without a name, every mention takes at least its separator away from the text. -/
theorem length_add_countP_le (ws : List String) :
    (String.join (ws.map (spanText ""))).length + ws.countP IsMention ≤
      (String.join (ws.map (" " ++ ·))).length := by
  induction ws with
  | nil => simp
  | cons w ws ih =>
    have hspace : " ".length = 1 := rfl
    simp only [List.map_cons, String.join_cons, List.countP_cons, decide_eq_true_eq]
    by_cases h : IsMention w
    · rw [spanText, if_pos h, if_pos h]
      simp only [String.length_append, String.length_empty]
      omega
    · rw [spanText, if_neg h, if_neg h]
      simp only [String.length_append]
      omega

/-- Without a name, the text is shown as a whole if there is no mention, and only then. -/
theorem join_spanText_eq_iff (ws : List String) :
    String.join (ws.map (spanText "")) = String.join (ws.map (" " ++ ·)) ↔
      ∀ w ∈ ws, ¬IsMention w := by
  constructor
  · intro h w hw
    have hle := length_add_countP_le ws
    rw [h] at hle
    have hnone : ws.countP IsMention = 0 := by omega
    simpa using List.countP_eq_zero.mp hnone w hw
  · intro h
    refine congrArg String.join (List.map_congr_left fun w hw => ?_)
    exact if_neg (h w hw)

/-- A word of a reply is shown as it is written unless the name differs from it. -/
theorem spanText_eq_iff {repliedUserName w : String} :
    spanText repliedUserName w = " " ++ w ↔ IsMention w → repliedUserName = " " ++ w := by
  unfold spanText
  split
  · rename_i h
    exact ⟨fun heq _ => heq, fun heq => heq h⟩
  · rename_i h
    exact ⟨fun _ hmention => absurd hmention h, fun _ => rfl⟩

/-- A comment is shown without losing a word exactly if no word but the first one of a reply is
taken for a mention. -/
theorem losesNoWord_build_iff (comment : Comment) :
    LosesNoWord comment (build comment) ↔ MentionsInPlace comment := by
  unfold build
  by_cases hempty : comment.comment = ""
  · have hwords : words comment = [""] := by
      rw [words, hempty]
      decide
    rw [if_pos hempty]
    refine ⟨fun _ => ?_, fun _ => hempty⟩
    unfold MentionsInPlace
    rw [hwords]
    split
    · decide
    · nofun
  · rw [if_neg hempty]
    unfold LosesNoWord MentionsInPlace
    by_cases hname : comment.repliedUserName = ""
    · have hjoin : String.join ((words comment).map (" " ++ ·)) = " " ++ comment.comment :=
        Dart.join_split comment.comment ' '
      simp only [if_pos hname]
      rw [text_span, hname, ← hjoin]
      exact join_spanText_eq_iff (words comment)
    · simp only [if_neg hname]
      rw [text_span]
      obtain ⟨first, rest, hwords⟩ :=
        List.exists_cons_of_ne_nil (Dart.split_ne_nil comment.comment ' ')
      rw [words, hwords, List.map_cons, replyTexts, List.cons.injEq, List.map_inj_left,
        List.tail_cons]
      constructor
      · rintro ⟨-, hrest⟩ w hw
        exact spanText_eq_iff.mp (hrest w hw)
      · intro h
        exact ⟨rfl, fun w hw => spanText_eq_iff.mpr (h w hw)⟩

/-- A comment that replies to nobody loses its word with `@`. -/
theorem not_losesNoWord_of_mention :
    ¬ LosesNoWord ⟨"c", "mail @home", 0, "u", "p", "", ""⟩
      (build ⟨"c", "mail @home", 0, "u", "p", "", ""⟩) := by
  decide

end TekkGram.CommentMessageView
