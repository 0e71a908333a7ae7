import TopologyAudit.Host.Letter
import TopologyAudit.Host.Mark

/-!
# Code points in their context

Some code points may stand in a label only beside certain others: the two joiners, the
middle dots, the Greek and Hebrew signs of numbers, and the digits of Arabic, of which
there are two kinds.
-/

namespace TopologyAudit

/-- Ranges of letters that join both neighbours in a cursive script. -/
def dualJoiningSet : CodePointSet := [
  (1568, 1568), (1574, 1574), (1576, 1576), (1578, 1582), (1587, 1599), (1601, 1607),
  (1609, 1610), (1646, 1647), (1656, 1671), (1690, 1727), (1729, 1730), (1740, 1740),
  (1742, 1742), (1744, 1745), (1786, 1788), (1791, 1791), (1810, 1812), (1818, 1821),
  (1823, 1831), (1833, 1833), (1835, 1835), (1837, 1838), (1870, 1880), (1884, 1898),
  (1901, 1904), (1906, 1906), (1909, 1911), (1914, 1919), (1994, 2026), (2113, 2117),
  (2120, 2120), (2122, 2131), (2133, 2133), (2144, 2144), (2146, 2149), (2152, 2152),
  (2182, 2182), (2185, 2189), (2208, 2217), (2223, 2224), (2227, 2232), (2234, 2248),
  (6176, 6264), (6279, 6312), (6314, 6314), (43072, 43121), (68288, 68292), (68307, 68310),
  (68312, 68316), (68318, 68320), (68331, 68334), (68480, 68480), (68482, 68482),
  (68486, 68488), (68490, 68491), (68493, 68493), (68496, 68496), (68525, 68526),
  (68865, 68897), (68899, 68899), (69424, 69426), (69428, 69444), (69457, 69459),
  (69488, 69491), (69494, 69505), (69552, 69552), (69554, 69555), (69560, 69560),
  (69563, 69564), (69566, 69567), (69569, 69569), (69572, 69572), (69578, 69578),
  (125184, 125251)]

/-- Ranges of letters that join only the letter before them. -/
def backJoiningSet : CodePointSet := [
  (1570, 1573), (1575, 1575), (1577, 1577), (1583, 1586), (1608, 1608), (1649, 1651),
  (1653, 1655), (1672, 1689), (1728, 1728), (1731, 1739), (1741, 1741), (1743, 1743),
  (1746, 1747), (1749, 1749), (1774, 1775), (1808, 1808), (1813, 1817), (1822, 1822),
  (1832, 1832), (1834, 1834), (1836, 1836), (1839, 1839), (1869, 1869), (1881, 1883),
  (1899, 1900), (1905, 1905), (1907, 1908), (1912, 1913), (2112, 2112), (2118, 2119),
  (2121, 2121), (2132, 2132), (2134, 2136), (2151, 2151), (2153, 2154), (2160, 2178),
  (2190, 2190), (2218, 2220), (2222, 2222), (2225, 2226), (2233, 2233), (68293, 68293),
  (68295, 68295), (68297, 68298), (68302, 68306), (68317, 68317), (68321, 68321),
  (68324, 68324), (68335, 68335), (68481, 68481), (68483, 68485), (68489, 68489),
  (68492, 68492), (68494, 68495), (68497, 68497), (68521, 68524), (68898, 68898),
  (69427, 69427), (69460, 69460), (69492, 69493), (69556, 69558), (69561, 69562),
  (69565, 69565), (69570, 69571), (69577, 69577)]

/-- Ranges of letters that join only the letter behind them. -/
def forwardJoiningSet : CodePointSet := [
  (43122, 43122), (68301, 68301), (68311, 68311), (68864, 68864), (69579, 69579)]

/-- Ranges of Greek letters and signs. -/
def greekSet : CodePointSet := [
  (880, 883), (885, 887), (890, 893), (895, 895), (900, 900), (902, 902), (904, 993),
  (1008, 1023), (7462, 7466), (7517, 7521), (7526, 7530), (7615, 7615), (7936, 8190),
  (8486, 8486), (43877, 43877), (65856, 65934), (65952, 65952), (119296, 119365)]

/-- Ranges of Hebrew letters, marks and signs. -/
def hebrewSet : CodePointSet := [(1425, 1479), (1488, 1514), (1519, 1524), (64285, 64335)]

/-- Ranges of the characters of Japanese: its two syllabaries and the Han characters. -/
def japaneseSet : CodePointSet := [
  (11904, 11929), (11931, 12019), (12032, 12245), (12293, 12293), (12295, 12295),
  (12321, 12329), (12344, 12347), (12353, 12438), (12445, 12447), (12449, 12538),
  (12541, 12543), (12784, 12799), (13008, 13054), (13056, 13143), (13312, 19903),
  (19968, 40959), (63744, 64109), (64112, 64217), (65382, 65391), (65393, 65437),
  (94178, 94179), (94192, 94193), (110576, 110579), (110581, 110587), (110589, 110590),
  (110592, 110882), (110928, 110930), (110948, 110951), (127488, 127488), (131072, 173791),
  (173824, 177976), (177984, 178205), (178208, 183969), (183984, 191456), (194560, 195101),
  (196608, 201546)]

namespace CodePoint

/-- Whether the code point is joined to the one behind it. -/
def joinsForward (c : CodePoint) : Bool :=
  dualJoiningSet.contains c || forwardJoiningSet.contains c

/-- Whether the code point is joined to the one before it. -/
def joinsBack (c : CodePoint) : Bool :=
  dualJoiningSet.contains c || backJoiningSet.contains c

/-- A digit of the Arabic kind. -/
def isArabicDigit (c : CodePoint) : Bool := c.within 0x660 0x669

/-- A digit of the kind that Persian and Urdu use. -/
def isPersianDigit (c : CodePoint) : Bool := c.within 0x6F0 0x6F9

/-- Whether a label may hold the code point between others, which come with the nearest
first. -/
def mayStand (before : Text) (c : CodePoint) (after : Text) : Bool :=
  let isAfterVirama := before.head?.any isVirama
  let nearest (side : Text) := (side.dropWhile isOverlaidMark).head?
  c.isLabelLetter
    || (c.val == 0x200C
      && (isAfterVirama || (nearest before).any joinsForward && (nearest after).any joinsBack))
    || (c.val == 0x200D && isAfterVirama)
    || (c.val == 0xB7 && before.head? == some 'l' && after.head? == some 'l')
    || (c.val == 0x375 && after.head?.any greekSet.contains)
    || (c.within 0x5F3 0x5F4 && before.head?.any hebrewSet.contains)
    || (c.val == 0x30FB && (before.any japaneseSet.contains || after.any japaneseSet.contains))
    || (c.isArabicDigit && !(before.any isPersianDigit || after.any isPersianDigit))
    || (c.isPersianDigit && !(before.any isArabicDigit || after.any isArabicDigit))

end CodePoint

/-- Whether every code point may stand where it does in a text that follows others, the
nearest first. -/
def Text.mayFollow (before : Text) : Text → Bool
  | [] => true
  | c :: rest => c.mayStand before rest && mayFollow (c :: before) rest

end TopologyAudit
