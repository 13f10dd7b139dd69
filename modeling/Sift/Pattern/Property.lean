import Sift.Unicode.Break
import Sift.Unicode.Age

/-!
# Properties by name

A pattern may name a property of characters, or a property and one of its values. Names are
compared without regard to case, blanks, underscores and hyphens, and a leading `is` is dropped.

* A name alone is that of a property that holds or not, of a general category or of a script,
  looked for in this order.
* With a value it is that of a property in `valued`.
-/

namespace Sift.Pattern

open Unicode (Category CharSet)

/-! ## 1. Names -/

/-- A name without a leading `is`, if that leaves something other than `c`: `isc` is the name of
    something else. -/
def withoutIs (name : List Char) (strip : List Char → List Char) : List Char :=
  match name with
  | i :: s :: rest =>
    if i.toLower = 'i' ∧ s.toLower = 's' then
      if strip rest = ['c'] then ['i', 's', 'c'] else strip rest
    else strip name
  | _ => strip name

/-- A name with only what counts in it. -/
def normalized (name : List Char) : String :=
  String.ofList <| withoutIs name fun s => s.filterMap fun c =>
    if c.toNat ≥ 0x80 || c == ' ' || c == '_' || c == '-' then none else some c.toLower

/-- What a table of names has for a name that is normalized already. -/
def findName? {α : Type} (table : List (List String × α)) (name : String) : Option α :=
  (table.find? fun row => row.1.any fun s => normalized s.toList == name).map (·.2)

/-! ## 2. General categories -/

/-- Groups of categories by their names, each with the first letters of the codes. -/
def categoryGroups : List (List String × List String) :=
  [(["L", "Letter"], ["L"]), (["LC", "Cased_Letter"], ["Lu", "Ll", "Lt"]),
   (["M", "Mark", "Combining_Mark"], ["M"]), (["N", "Number"], ["N"]),
   (["P", "Punctuation", "punct"], ["P"]), (["S", "Symbol"], ["S"]), (["Z", "Separator"], ["Z"]),
   (["C", "Other"], ["C"])]

/-- Single categories by their long names, each with its code. Surrogates are no characters and
    have no set. -/
def categoryNames : List (List String × String) :=
  [(["Uppercase_Letter"], "Lu"), (["Lowercase_Letter"], "Ll"), (["Titlecase_Letter"], "Lt"),
   (["Modifier_Letter"], "Lm"), (["Other_Letter"], "Lo"), (["Nonspacing_Mark"], "Mn"),
   (["Spacing_Mark"], "Mc"), (["Enclosing_Mark"], "Me"), (["Decimal_Number", "digit"], "Nd"),
   (["Letter_Number"], "Nl"), (["Other_Number"], "No"), (["Connector_Punctuation"], "Pc"),
   (["Dash_Punctuation"], "Pd"), (["Open_Punctuation"], "Ps"), (["Close_Punctuation"], "Pe"),
   (["Initial_Punctuation"], "Pi"), (["Final_Punctuation"], "Pf"), (["Other_Punctuation"], "Po"),
   (["Math_Symbol"], "Sm"), (["Currency_Symbol"], "Sc"), (["Modifier_Symbol"], "Sk"),
   (["Other_Symbol"], "So"), (["Space_Separator"], "Zs"), (["Line_Separator"], "Zl"),
   (["Paragraph_Separator"], "Zp"), (["Control", "cntrl"], "Cc"), (["Format"], "Cf"),
   (["Private_Use"], "Co"), (["Unassigned"], "Cn")]

/-- The characters whose category has a code that begins with one of `codes`. -/
def ofCodes (codes : List String) : CharSet :=
  .those fun category => codes.any fun c => c.toList.isPrefixOf category.code.toList

/-- The set of a category or a group of categories. -/
def ofCategory? (name : String) : Option CharSet :=
  match name with
  | "any" => some .all
  | "ascii" => some .ascii
  | "assigned" => some (.compl (.of .unassigned))
  | name =>
    match findName? categoryGroups name, findName? categoryNames name with
    | some codes, _ => some (ofCodes codes)
    | none, some code => some (ofCodes [code])
    | none, none =>
      (Category.all.find? fun c => c.1 != .surrogate && normalized c.2.toList == name).map
        fun c => .of c.1

/-! ## 3. Other properties -/

/-- The code of a script, from its code or its long name. -/
def scriptCode? (name : String) : Option String :=
  findName? (Unicode.scriptNames.map fun (long, code) => ([long, code], code)) name

/-- The set of one of the properties that hold or do not hold. -/
def ofFlag? (name : String) : Option CharSet :=
  findName? (Unicode.flags.map fun (short, long, set) => ([short, long], set)) name

/-- The set of an edition of the standard and those before it, by number (`6.1`) or with a letter
    (`V6_1`). -/
def ofAge? (name : String) : Option CharSet :=
  (findName? (Unicode.editions.map fun e =>
    ([e, String.ofList ('V' :: e.toList.map fun c => if c = '.' then '_' else c)], e)) name).bind
      Unicode.ofEdition?

/-- The properties that have values, each with the set of a value. -/
def valued : List (List String × (String → Option CharSet)) :=
  [(["gc", "General_Category"], ofCategory?),
   (["sc", "Script"], fun name => (scriptCode? name).map Unicode.ofScript),
   (["scx", "Script_Extensions"], fun name => (scriptCode? name).map Unicode.ofScriptExtension),
   (["Age"], ofAge?),
   (["GCB", "Grapheme_Cluster_Break"], findName? Unicode.graphemeBreaks),
   (["WB", "Word_Break"], findName? Unicode.wordBreaks),
   (["SB", "Sentence_Break"], findName? Unicode.sentenceBreaks)]

/-! ## 4. What names stand for -/

/-- The set that a name alone stands for. -/
def ofName? (name : List Char) : Option CharSet :=
  let name := normalized name
  (ofFlag? name).orElse fun _ => (ofCategory? name).orElse fun _ =>
    (scriptCode? name).map Unicode.ofScript

/-- The set of the characters for which a property has a value. -/
def ofValue? (property value : List Char) : Option CharSet :=
  (findName? valued (normalized property)).bind fun sets => sets (normalized value)

end Sift.Pattern
