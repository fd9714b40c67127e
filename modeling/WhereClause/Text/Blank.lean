/-
WhereClause/Text/Blank.lean

White space and words.  A blank is a character with Unicode's White_Space
property; a word is a maximal run of other characters.  The zero-width space,
the byte order mark and the information separators are not blanks.
-/

namespace WhereClause.Text

/-- The characters with the White_Space property. -/
def blanks : List Char :=
  ['\t', '\n', '\x0b', '\x0c', '\r', ' ', '\u0085', '\u00a0', '\u1680',
   '\u2000', '\u2001', '\u2002', '\u2003', '\u2004', '\u2005', '\u2006',
   '\u2007', '\u2008', '\u2009', '\u200a', '\u2028', '\u2029', '\u202f',
   '\u205f', '\u3000']

def isBlank (c : Char) : Bool := blanks.contains c

/-- The words of a text, in order. -/
def words (cs : List Char) : List (List Char) :=
  (cs.splitOnP isBlank).filter fun w => !w.isEmpty

end WhereClause.Text
