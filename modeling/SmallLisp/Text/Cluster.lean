import SmallLisp.Text.BreakClass
/-!
# Clusters

A cluster is what a reader takes for one character: a code point with all that joins it. `clusters`
cuts a text where two neighbours do not join:

    "e\u0301x"  ──clusters──▶  ["e\u0301", "x"]

Whether a character joins the cluster before it depends on the cluster's last character, and in three
places on more of it: a consonant joins a conjunct, a picture joins a picture with a joiner after it,
and the letters of flags join two by two. None of the three looks beyond the cluster, because
whatever stands between is itself joined to it. While a text is being cut, clusters and the list of
them are kept last first.
-/

namespace SmallLisp.Text

/-- Whether a character can stand between a consonant and its linker: an extender or the joiner, but
not the mark that keeps consonants apart. -/
def isConjunctMark (c : Char) : Bool :=
  (breakClass c == .extender && c != '\u200c') || breakClass c == .joiner

/-- Whether a cluster ends in a consonant and a linker, so that another consonant joins it. -/
def linksOn (cluster : List Char) : Bool :=
  (cluster.takeWhile isConjunctMark).any linkers.contains &&
    (cluster.dropWhile isConjunctMark).head?.any (breakClass · == .consonant)

/-- Whether a cluster ends in a picture and its marks. -/
def endsInPicture (cluster : List Char) : Bool :=
  (cluster.dropWhile (breakClass · == .extender)).head?.any (breakClass · == .picture)

/-- Whether a cluster ends in half a flag: in an odd number of its letters. -/
def endsInHalfFlag (cluster : List Char) : Bool :=
  (cluster.takeWhile (breakClass · == .regional)).length % 2 == 1

/-- Whether a character joins the cluster before it, which is given last character first. -/
def joins : List Char → Char → Bool
  | [], _ => false
  | last :: earlier, c =>
    match breakClass last, breakClass c with
    | .carriageReturn, .lineFeed => true
    | .carriageReturn, _ | .lineFeed, _ | .control, _ => false
    | _, .carriageReturn | _, .lineFeed | _, .control => false
    | .initial, .initial | .initial, .vowel => true
    | .initial, .openSyllable | .initial, .closedSyllable => true
    | .openSyllable, .vowel | .openSyllable, .final | .vowel, .vowel | .vowel, .final => true
    | .closedSyllable, .final | .final, .final => true
    | _, .extender | _, .joiner | _, .spacing => true
    | .leading, _ => true
    | _, .consonant => linksOn (last :: earlier)
    | .joiner, .picture => endsInPicture earlier
    | .regional, .regional => endsInHalfFlag (last :: earlier)
    | _, _ => false

/-- Adds a character to the end of a text that is cut into clusters. -/
def addToClusters : List (List Char) → Char → List (List Char)
  | [], c => [[c]]
  | cluster :: done, c =>
    if joins cluster c then (c :: cluster) :: done else [c] :: cluster :: done

def clusters (text : List Char) : List (List Char) :=
  ((text.foldl addToClusters []).map List.reverse).reverse

end SmallLisp.Text
