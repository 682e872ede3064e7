/-
# Relative addresses

A text without a scheme spells an address seen from another one, the base: parts that stand in front
of those that are given are the base's.  A path that does not begin with a separator is given from
the base's last segment on.
-/
import PackageStaging.Url

namespace PackageStaging.Url

/-- Whether a text begins with a segment that names a drive. -/
def beginsWithDrive (s : List Char) : Bool := isDrive (s.takeWhile fun c => !endsAuthority true c)

/-- The segments of the base that are in front of a path without a separator at its front. -/
def segmentsBefore (scheme : List Char) (ss : List (List Char)) (text : List Char) :
    List (List Char) :=
  if isFile scheme && beginsWithDrive text then [] else shortened (isFile scheme) ss

/-- The segments of the base that are in front of a path with a separator at its front: the drive
of a local file. -/
def segmentsAbove (scheme : List Char) (ss : List (List Char)) (text : List Char) :
    List (List Char) :=
  if isFile scheme && !beginsWithDrive text then ss.take 1 |>.filter isDrive else []

/-- Whether the text begins with two separators, behind which there is an authority. -/
def beginsWithAuthority (special : Bool) : List Char → Bool
  | c :: d :: _ => isSeparator special c && isSeparator special d
  | _ => false

/-- The address that a text without a scheme spells, seen from a base with these segments. -/
def readRelative [Domain.Rules] (base : Url) (ss : List (List Char)) (s : List Char) :
    Except Fault Url :=
  if beginsWithAuthority (isSpecial base.scheme) s then readBehindScheme base.scheme s
  else
    let (query, fragment) := cutSuffix base.scheme (s.dropWhile fun c => !endsPath c)
    match s.takeWhile fun c => !endsPath c with
    | [] => .ok { base with query := query.or base.query, fragment := fragment }
    | c :: rest =>
      let path :=
        if isSeparator (isSpecial base.scheme) c then
          pathSegments base.scheme (segmentsAbove base.scheme ss rest) rest
        else pathSegments base.scheme (segmentsBefore base.scheme ss (c :: rest)) (c :: rest)
      .ok { base with path := .segments path, query := query, fragment := fragment }

/-- The address that a text spells, seen from a base.  A text with the scheme of the base may be
relative, too, if the scheme is one whose addresses always have an authority. -/
def join [Domain.Rules] (base : Url) (reference : String) : Except Fault Url :=
  let s := cleaned reference.toList
  match cutScheme s with
  | some (scheme, rest) =>
    match base.path with
    | .segments ss =>
      if isSpecial scheme ∧ scheme = base.scheme then readRelative base ss rest
      else readBehindScheme scheme rest
    | .unstructured _ => readBehindScheme scheme rest
  | none =>
    match base.path, s with
    | .segments ss, s => readRelative base ss s
    | .unstructured _, '#' :: _ => .ok { base with fragment := (cutSuffix base.scheme s).2 }
    | .unstructured _, _ => .error .notABase

end PackageStaging.Url
