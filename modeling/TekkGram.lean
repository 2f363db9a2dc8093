import TekkGram.Access.Bystander
import TekkGram.Access.Owners
import TekkGram.Access.Started
import TekkGram.App.Operations
import TekkGram.Auth.Agreement
import TekkGram.Auth.LoggedInProfile
import TekkGram.Chat.Conversation
import TekkGram.Chat.Delivery
import TekkGram.Chat.GroupChatId
import TekkGram.Comments.Providers
import TekkGram.Comments.Sorting
import TekkGram.Comments.Sound
import TekkGram.Database.Documents
import TekkGram.Database.Effects
import TekkGram.Database.Linearized
import TekkGram.Extensions.HtmlColor
import TekkGram.Failure.FirestoreAtomic
import TekkGram.Failure.Updates
import TekkGram.Feeds.Comments
import TekkGram.Feeds.Lists
import TekkGram.Feeds.Posts
import TekkGram.Feeds.Users
import TekkGram.Hashing.Table
import TekkGram.Interaction.Async
import TekkGram.Interaction.Atomic
import TekkGram.Interaction.Closing
import TekkGram.Interaction.Events
import TekkGram.Interaction.Fresh
import TekkGram.Interaction.History
import TekkGram.Interaction.Linear
import TekkGram.Interaction.Placed
import TekkGram.Interaction.Pool
import TekkGram.Interaction.Program
import TekkGram.Interaction.Session
import TekkGram.Interaction.Since
import TekkGram.Interaction.Trace
import TekkGram.Interaction.Until
import TekkGram.Lazy.Sequence
import TekkGram.Likes.AtMostOneLike
import TekkGram.Likes.InTurn
import TekkGram.Likes.LikeDislike
import TekkGram.Likes.Toggles
import TekkGram.Loading.FlagOff
import TekkGram.Loading.InProgress
import TekkGram.Loading.LastOff
import TekkGram.Media.Alignment
import TekkGram.Media.AspectRatio
import TekkGram.Media.EditedPost
import TekkGram.Media.Immutable
import TekkGram.Media.Operation
import TekkGram.Media.Outcomes
import TekkGram.Media.SingleFile
import TekkGram.Model.Document
import TekkGram.Model.Effects
import TekkGram.Model.Media
import TekkGram.Model.Network
import TekkGram.Model.Query
import TekkGram.Model.Records
import TekkGram.Model.Rules
import TekkGram.Model.Strings
import TekkGram.Model.Working
import TekkGram.Model.World
import TekkGram.Notifiers.Album
import TekkGram.Notifiers.Auth
import TekkGram.Notifiers.ChatMessage
import TekkGram.Notifiers.Comments
import TekkGram.Notifiers.DeletePost
import TekkGram.Notifiers.EditPost
import TekkGram.Notifiers.ImageUpload
import TekkGram.Notifiers.Media
import TekkGram.Order.Descending
import TekkGram.Posts.DeleteRetry
import TekkGram.Posts.Deletion
import TekkGram.Posts.DetailsScreen
import TekkGram.Posts.MediaExist
import TekkGram.Posts.MediaLeak
import TekkGram.Posts.Operation
import TekkGram.Posts.Orphans
import TekkGram.Posts.Published
import TekkGram.Posts.Readable
import TekkGram.Posts.SpecificPost
import TekkGram.Records.HashCodes
import TekkGram.Records.ReadBack
import TekkGram.Records.Stored
import TekkGram.Records.Written
import TekkGram.Users.OneProfile
import TekkGram.Users.Persistence
import TekkGram.Users.ProfileEdits
import TekkGram.Users.Profiles
import TekkGram.Users.SavedProfile
import TekkGram.Views.ChatMessageScreen
import TekkGram.Views.CommentMessageView
import TekkGram.Views.CreateNewPostView
import TekkGram.Views.LoadingScreen
import TekkGram.Views.PostCommentsView
import TekkGram.Views.PostEditScreen
import TekkGram.Views.UserProfileView
