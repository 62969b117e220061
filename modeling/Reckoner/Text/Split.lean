/-!
# Splitting

Settings are written as a name, an equals sign and a value, which may itself hold equals signs.
-/

namespace Reckoner.Text

/-- What stands before the first equals sign and what stands behind it, if there is one. -/
def splitSetting (s : String) : String × Option String :=
  let cs := s.toList
  (String.ofList (cs.takeWhile (· != '=')),
    match cs.dropWhile (· != '=') with
    | [] => none
    | _ :: value => some (String.ofList value))

end Reckoner.Text
