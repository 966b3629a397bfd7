import IndexedMail.Yaml.Cursor

/-!
# Folded line breaks

Inside plain and quoted scalars one line break is a blank, and more of them are as many line
feeds less one.
-/

namespace IndexedMail.Yaml

/-- What a line break and the breaks of the empty lines behind it stand for. -/
def folded (first further : List Char) : List Char :=
  if first != ['\n'] then first ++ further
  else if further.isEmpty then [' ']
  else further

end IndexedMail.Yaml
