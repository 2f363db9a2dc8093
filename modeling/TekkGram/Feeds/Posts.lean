import TekkGram.Feeds.Lists
import TekkGram.Records.Stored

/-!
# The lists of posts

The home tab shows all posts, a profile those of its user, and the search those whose message
contains the term. Their providers decode the documents of a snapshot on access. The home tab and a
profile ask for one post at a time, so that only the tile of a broken document fails; the search
tests every post, so that one broken document breaks it for every term.
-/

namespace TekkGram

open Interaction Async Arrangement

/-- `s.contains(other)`. -/
def Dart.contains (s other : String) : Bool := decide (other.toList <:+: s.toList)

/-- The posts of the home tab and of the search. -/
def Query.allPosts : Query := { collection := .posts }

/-- The post of a document of a snapshot. -/
def QueryDocumentSnapshot.post (doc : QueryDocumentSnapshot) : Option Post :=
  Post.ofJson doc.id doc.data

/-- What `allPostsProvider` emits for a snapshot. -/
def allPosts (docs : List QueryDocumentSnapshot) : Lazy.Sequence Post :=
  .mapped (docs.map QueryDocumentSnapshot.post)

/-- The message of a post contains the term, whatever the case. -/
def Post.matches (toLowerCase : String → String) (searchTerm : String) (post : Post) : Bool :=
  Dart.contains (toLowerCase post.message) (toLowerCase searchTerm)

/-- What the search shows. -/
inductive SearchShown where
  | enterYourSearchTerm
  | posts (shown : ListShown Post)
  deriving DecidableEq, Repr

/-- `HomeView`, `UserPostsView` and `PostsListTabView`, as a grid or as a list. -/
abbrev PostsView.build : Lazy.Sequence Post → Option (ListShown Post) := ListView.build

/-- `SearchGridView`. -/
def SearchGridView.build (searchTerm : String) (posts : Lazy.Sequence Post) : Option SearchShown :=
  if searchTerm = "" then some .enterYourSearchTerm else (ListView.build posts).map .posts

section Settled

variable {docs : Collection}

end Settled

end TekkGram
