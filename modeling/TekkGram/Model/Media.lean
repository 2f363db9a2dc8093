import Mathlib.Data.Rat.Defs

/-!
# Files, pictures and storage references

A decoded picture and an encoded thumbnail remember which file they show, so that
a stored object can be traced back to the file the user chose. Pixel contents
are not modelled; the pixel size is, since the aspect ratio is read from it.
-/

namespace TekkGram

/-- The kinds of uploads. -/
inductive FileType where
  | image
  | video
  | userImage
  deriving DecidableEq, Repr

/-- `FileType.values`, in declaration order. -/
def FileType.values : List FileType := [.image, .video, .userImage]

/-- The stored name of a file type. -/
def FileType.name : FileType → String
  | .image => "image"
  | .video => "video"
  | .userImage => "userImage"

/-- The storage folder of the originals of a file type. -/
def FileType.collectionName : FileType → String
  | .image => "images"
  | .video => "videos"
  | .userImage => "user_image"

/-- The storage folder of every thumbnail. -/
def thumbnails : String := "thumbnails"

/-- The storage folder of the originals sent in a chat. -/
def chatFolder : String := "chat"

/-- No original is stored among the thumbnails. -/
theorem FileType.collectionName_ne_thumbnails (t : FileType) :
    t.collectionName ≠ thumbnails := by
  cases t <;> decide

theorem chatFolder_ne_thumbnails : chatFolder ≠ thumbnails := by decide

namespace Constants

/-- The width of a picture's thumbnail, in pixels. -/
def imageThumbnailWidth : Nat := 500

/-- The greatest height of a video's thumbnail, in pixels. -/
def videoThumbnailMaxHeight : Nat := 600

/-- The JPEG quality of a video's thumbnail. -/
def videoThumbnailMaxQuality : Nat := 70

end Constants

/-- A file on the device. -/
structure File where
  path : String
  deriving DecidableEq, Repr

/-- A decoded picture: the file it shows and its size in pixels. -/
structure Image where
  source : File
  width : Nat
  height : Nat
  deriving DecidableEq, Repr

/-- Bytes of a file or of an encoded thumbnail: the file they show and their picture's size. -/
structure Uint8List where
  source : File
  width : Nat
  height : Nat
  deriving DecidableEq, Repr

/-- The width of the encoded picture over its height. -/
def Uint8List.aspectRatio (bytes : Uint8List) : ℚ := bytes.width / bytes.height

/-- The contents of a stored object: bytes from memory, or a whole file. -/
inductive Blob where
  | data (bytes : Uint8List)
  | file (file : File)
  deriving DecidableEq, Repr

/-- The object `<uid>/<folder>/<name>`: every reference of the app is the bucket's
root followed by these three children. -/
structure Reference where
  userId : String
  folder : String
  name : String
  deriving DecidableEq, Repr

/-- The reference of a thumbnail. -/
def thumbnailReference (userId name : String) : Reference := ⟨userId, thumbnails, name⟩

/-- The snapshot of a finished upload. -/
structure TaskSnapshot where
  ref : Reference
  deriving DecidableEq, Repr

end TekkGram
