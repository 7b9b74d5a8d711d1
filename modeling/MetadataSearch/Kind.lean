import MetadataSearch.ContentType

/-!
# Kinds of files

A closed list of coarse kinds, each with the content type that its files conform to. The name of a
kind may be given in either case of ASCII letters.
-/

namespace MetadataSearch

inductive Kind where
  | document
  | image
  | video
  | audio
  | pdf
  | code
  deriving DecidableEq

namespace Kind

def all : List Kind := [.document, .image, .video, .audio, .pdf, .code]

def name : Kind → String
  | .document => "document"
  | .image => "image"
  | .video => "video"
  | .audio => "audio"
  | .pdf => "pdf"
  | .code => "code"

/-- The identifier that stands in the content type tree of every file of the kind. -/
def contentType : Kind → String
  | .document => "public.data"
  | .image => "public.image"
  | .video => "public.movie"
  | .audio => "public.audio"
  | .pdf => "com.adobe.pdf"
  | .code => "public.source-code"

def ofName? (text : String) : Option Kind :=
  all.find? fun kind => kind.name == Text.smallLetters text

end Kind

end MetadataSearch
