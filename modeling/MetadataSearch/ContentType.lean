import MetadataSearch.Path
import MetadataSearch.Text.Ascii

/-!
# Content types

A content type is an identifier with the identifiers it conforms to, nearest first. Files get theirs
from the extension, whose ASCII letters may have either case; directories are folders.
-/

namespace MetadataSearch

structure ContentType where
  identifier : String
  ancestors : List String

namespace ContentType

/-! ## Families -/

def data : List String := ["public.data", "public.item", "public.content"]
def text : List String := "public.text" :: data
def plainText : List String := "public.plain-text" :: text
def sourceCode : List String := "public.source-code" :: plainText
def script : List String := "public.script" :: sourceCode
def image : List String := "public.image" :: data
def audiovisual : List String := "public.audiovisual-content" :: data
def movie : List String := "public.movie" :: audiovisual
def audio : List String := "public.audio" :: audiovisual
def composite : List String := "public.composite-content" :: data

/-! ## Types -/

def folder : ContentType :=
  ⟨"public.folder", ["public.folder", "public.directory", "public.item"]⟩

/-- The type of files without a known extension. -/
def plainData : ContentType := ⟨"public.data", data⟩

/-- The types of files by extension, in small letters. -/
def byExtension : List (List String × ContentType) :=
  [ (["rs"], ⟨"org.rust-lang.rust-source", sourceCode⟩),
    (["c"], ⟨"public.c-source", sourceCode⟩),
    (["h"], ⟨"public.c-header", sourceCode⟩),
    (["cc", "cpp", "cxx"], ⟨"public.c-plus-plus-source", sourceCode⟩),
    (["hh", "hpp", "hxx"], ⟨"public.c-plus-plus-header", sourceCode⟩),
    (["m"], ⟨"public.objective-c-source", sourceCode⟩),
    (["swift"], ⟨"public.swift-source", sourceCode⟩),
    (["go"], ⟨"org.golang.go-source", sourceCode⟩),
    (["java"], ⟨"com.sun.java-source", sourceCode⟩),
    (["kt"], ⟨"org.kotlinlang.kotlin-source", sourceCode⟩),
    (["js", "mjs"], ⟨"com.netscape.javascript-source", sourceCode⟩),
    (["ts", "tsx"], ⟨"com.microsoft.typescript", sourceCode⟩),
    (["py"], ⟨"public.python-script", script⟩),
    (["rb"], ⟨"public.ruby-script", script⟩),
    (["pl"], ⟨"public.perl-script", script⟩),
    (["php"], ⟨"public.php-script", script⟩),
    (["sh", "bash", "zsh"], ⟨"public.shell-script", script⟩),
    (["txt", "text", "log"], ⟨"public.plain-text", text⟩),
    (["md", "markdown"], ⟨"net.daringfireball.markdown", plainText⟩),
    (["csv"], ⟨"public.comma-separated-values-text", plainText⟩),
    (["json"], ⟨"public.json", text⟩),
    (["xml"], ⟨"public.xml", text⟩),
    (["yaml", "yml"], ⟨"public.yaml", plainText⟩),
    (["toml"], ⟨"public.toml", plainText⟩),
    (["html", "htm"], ⟨"public.html", text⟩),
    (["png"], ⟨"public.png", image⟩),
    (["jpg", "jpeg"], ⟨"public.jpeg", image⟩),
    (["gif"], ⟨"com.compuserve.gif", image⟩),
    (["heic"], ⟨"public.heic", image⟩),
    (["tif", "tiff"], ⟨"public.tiff", image⟩),
    (["bmp"], ⟨"com.microsoft.bmp", image⟩),
    (["webp"], ⟨"org.webmproject.webp", image⟩),
    (["svg"], ⟨"public.svg-image", image⟩),
    (["mp4"], ⟨"public.mpeg-4", movie⟩),
    (["mov"], ⟨"com.apple.quicktime-movie", movie⟩),
    (["m4v"], ⟨"com.apple.m4v-video", movie⟩),
    (["avi"], ⟨"public.avi", movie⟩),
    (["mkv"], ⟨"org.matroska.mkv", movie⟩),
    (["mp3"], ⟨"public.mp3", audio⟩),
    (["m4a"], ⟨"com.apple.m4a-audio", audio⟩),
    (["wav"], ⟨"com.microsoft.waveform-audio", audio⟩),
    (["aif", "aiff"], ⟨"public.aiff-audio", audio⟩),
    (["flac"], ⟨"org.xiph.flac", audio⟩),
    (["aac"], ⟨"public.aac-audio", audio⟩),
    (["pdf"], ⟨"com.adobe.pdf", composite⟩) ]

/-- The type of files with this extension, if it is known. -/
def ofExtension? (extension : String) : Option ContentType :=
  (byExtension.find? fun row => row.1.contains (Text.smallLetters extension)).map Prod.snd

/-- The type of what stands at a path. An extension that is no text is unknown. -/
def ofPath (path : Path) (isDirectory : Bool) : ContentType :=
  if isDirectory then folder
  else
    let extension := (Path.extension? path).bind Text.decode?
    (extension.bind fun text => ofExtension? (String.ofList text)).getD plainData

/-- The identifier and all that it conforms to, each once. -/
def tree (t : ContentType) : List String :=
  t.identifier :: t.ancestors.filter (· != t.identifier)

end ContentType

end MetadataSearch
