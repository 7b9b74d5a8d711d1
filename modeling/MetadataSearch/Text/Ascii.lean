/-!
# ASCII letters

`Text.smallLetters` turns the capital letters of ASCII into small ones and leaves every other
character alone. Names that may be given in either case are compared in this form.
-/

namespace MetadataSearch.Text

def smallLetters (text : String) : String := String.ofList (text.toList.map Char.toLower)

end MetadataSearch.Text
