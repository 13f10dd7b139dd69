import Sift.Unicode.Flag
import Sift.Unicode.Script

/-!
# Where texts may be broken

A text is broken into what a reader takes for characters, into words and into sentences by rules
that look at the kind of each code point. There is a property for each of the three, and its values
are those kinds. What has no kind has no name here either.
-/

namespace Sift.Unicode

open CharSet

/-- What continues the character before it in words and sentences. -/
def continuing : CharSet := union graphemeExtend (.of .spacingMark)

/-! ## 1. Characters as a reader sees them -/

/-- Vowel signs and letters that go before the next letter. -/
def prepended : CharSet :=
  union prependedMark
    (.ofText "D4E 111C2-111C3 113D1 1193F 11941 11A3A 11A84-11A89 11D46 11F02")

/-- What continues a reader's character. -/
def graphemeContinuing : CharSet := union graphemeExtend emojiModifier

/-- The syllables of two letters: the first of every 28. -/
def syllablesOfTwo : CharSet := .ofList ((List.range 399).map fun i => 0xAC00 + 28 * i)

/-- The kinds of code points for breaking between a reader's characters. -/
def graphemeBreaks : List (List String × CharSet) :=
  [(["CR"], .ofText "D"),
   (["LF"], .ofText "A"),
   (["ZWJ"], .ofText "200D"),
   (["EX", "Extend"], graphemeContinuing),
   (["PP", "Prepend"], prepended),
   (["CN", "Control"], diff
     (.unionAll [.of .lineSeparator, .of .paragraphSeparator, .of .control, .of .format,
       inter (.of .unassigned) defaultIgnorable])
     (.unionAll [graphemeContinuing, prepended, .ofText "A D 200D"])),
   (["RI", "Regional_Indicator"], regionalIndicator),
   (["SM", "SpacingMark"], union (.ofText "E33 EB3")
     (diff (.of .spacingMark) (.union graphemeExtend (.ofText (String.join
       ["102B-102C 1038 1062-1064 1067-106D 1083 1087-108C 108F 109A-109C 1A61 1A63-1A64 ",
        "AA7B AA7D 11720-11721"]))))),
   (["L"], .ofText "1100-115F A960-A97C"),
   (["V"], .ofText "1160-11A7 D7B0-D7C6 16D63 16D67-16D6A"),
   (["T"], .ofText "11A8-11FF D7CB-D7FB"),
   (["LV"], syllablesOfTwo),
   (["LVT"], diff (.range 0xAC00 0xD7A3) syllablesOfTwo)]

/-! ## 2. Words -/

/-- Marks of numbers that hold digits together. -/
def numberMarks : CharSet := .ofText "600-605 6DD 890-891 8E2 110BD 110CD"

/-- Letters of words in Katakana. -/
def katakana : CharSet :=
  union (ofScript "Kana") (.ofText "3031-3035 309B-309C 30A0 30FC FF70")

/-- Letters of words in Hebrew. -/
def hebrew : CharSet := inter (ofScript "Hebr") (.of .otherLetter)

/-- What counts as a letter of words though it is not alphabetic. -/
def otherWordLetters : CharSet :=
  .ofText (String.join
    ["B8 2C2-2C5 2D2-2D7 2DE-2DF 2E5-2EB 2ED 2EF-2FF 55A-55C 55E 58A 5F3 70F A708-A716 ",
     "A720-A721 A789-A78A AB5B"])

/-- Letters of writing without blanks between words. -/
def unspacedLetters : CharSet :=
  .ofText (String.join
    ["E01-E30 E32-E33 E40-E46 E81-E82 E84 E86-E8A E8C-EA3 EA5 EA7-EB0 EB2-EB3 EBD EC0-EC4 ",
     "EC6 EDC-EDF 1000-102A 103F 1050-1055 105A-105D 1061 1065-1066 106E-1070 1075-1081 108E ",
     "1780-17B3 17D7 17DC 1950-196D 1970-1974 1980-19AB 19B0-19C9 1A20-1A54 1AA7 A9E0-A9E4 ",
     "A9E6-A9EF A9FA-A9FE AA60-AA76 AA7A AA7E-AAAF AAB1 AAB5-AAB6 AAB9-AABD AAC0 AAC2 ",
     "AADB-AADD 11700-1171A 11740-11746"])

/-- The kinds of code points for breaking between words. -/
def wordBreaks : List (List String × CharSet) :=
  [(["CR"], .ofText "D"),
   (["LF"], .ofText "A"),
   (["NL", "Newline"], .ofText "B-C 85 2028-2029"),
   (["Extend"], union continuing emojiModifier),
   (["ZWJ"], .ofText "200D"),
   (["FO", "Format"], diff (.of .format)
     (.union numberMarks (.ofText "70F 200B-200D E0020-E007F"))),
   (["RI", "Regional_Indicator"], regionalIndicator),
   (["KA", "Katakana"], katakana),
   (["HL", "Hebrew_Letter"], hebrew),
   (["LE", "ALetter"], union otherWordLetters
     (diff alphabetic (.unionAll [ideographic, katakana, ofScript "Hira", continuing, hebrew,
       unspacedLetters]))),
   (["SQ", "Single_Quote"], .ofText "27"),
   (["DQ", "Double_Quote"], .ofText "22"),
   (["MB", "MidNumLet"], .ofText "2E 2018-2019 2024 FE52 FF07 FF0E"),
   (["ML", "MidLetter"], .ofText "3A B7 387 55F 5F4 2027 FE13 FE55 FF1A"),
   (["MN", "MidNum"],
     .ofText "2C 3B 37E 589 60C-60D 66C 7F8 2044 FE10 FE14 FE50 FE54 FF0C FF1B"),
   (["NU", "Numeric"], .unionAll [.of .decimalNumber, numberMarks, .ofText "66B"]),
   (["EX", "ExtendNumLet"], .ofText "5F 202F 203F-2040 2054 FE33-FE34 FE4D-FE4F FF3F"),
   (["WSegSpace"], .ofText "20 1680 2000-2006 2008-200A 205F 3000")]

/-! ## 3. Sentences -/

/-- Stops that may also stand inside a sentence. -/
def ambiguousStops : CharSet := .ofText "2E 2024 FE52 FF0E"

/-- The characters that are lower case within a sentence. -/
def sentenceLower : CharSet :=
  diff lowercase (.union continuing (.ofText "10D0-10FA 10FD-10FF"))

/-- The characters that may begin a sentence by their case. -/
def sentenceUpper : CharSet :=
  diff (.union uppercase (.of .titlecaseLetter)) (.ofText "1C90-1CBA 1CBD-1CBF")

/-- The kinds of code points for breaking between sentences. -/
def sentenceBreaks : List (List String × CharSet) :=
  [(["CR"], .ofText "D"),
   (["LF"], .ofText "A"),
   (["EX", "Extend"], union continuing (.ofText "200D")),
   (["SE", "Sep"], .ofText "85 2028-2029"),
   (["FO", "Format"], diff (.of .format)
     (.union numberMarks (.ofText "200C-200D E0020-E007F"))),
   (["SP", "Sp"], diff whiteSpace (.ofText "A D 85 2028-2029")),
   (["LO", "Lower"], sentenceLower),
   (["UP", "Upper"], sentenceUpper),
   (["LE", "OLetter"], union (.ofText "5F3")
     (diff alphabetic (.unionAll [continuing, sentenceLower, sentenceUpper]))),
   (["NU", "Numeric"], .unionAll [.of .decimalNumber, numberMarks, .ofText "66B-66C"]),
   (["AT", "ATerm"], ambiguousStops),
   (["SC", "SContinue"], .ofText (String.join
     ["2C-2D 3A-3B 37E 55D 60C-60D 7F8 1802 1808 2013-2014 3001 FE10-FE11 FE13-FE14 FE31-FE32 ",
      "FE50-FE51 FE54-FE55 FE58 FE63 FF0C-FF0D FF1A-FF1B FF64"])),
   (["ST", "STerm"], diff sentenceTerminal ambiguousStops),
   (["CL", "Close"], .unionAll [.of .openPunctuation, .of .closePunctuation,
     .of .initialPunctuation, .of .finalPunctuation,
     .ofText "22 27 275B-2760 2E00-2E01 2E06-2E08 2E0B 1F676-1F678"])]

end Sift.Unicode
