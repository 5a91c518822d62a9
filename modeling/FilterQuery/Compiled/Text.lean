import FilterQuery.Compiled
import FilterQuery.Node.Text
import FilterQuery.Text.Ranges

/-! Canonical text of a compiled query: sources, formats, content, tags, dates and numbers, with blanks
between. The page is not written. -/

namespace FilterQuery

namespace Compiled

open Text (term quote regexLiteral fieldMark blankSplit)

def boundTexts (category : Category) (same : α → α → Bool) (text : α → List Char) (b : Bounds α) :
    List (List Char) :=
  let mark (sign : String) (a : α) := category.name.toList ++ ':' :: sign.toList ++ text a
  match b with
  | ⟨some a, some b⟩ => if same a b then [mark "=" a] else [mark ">=" a, mark "<=" b]
  | ⟨least, greatest⟩ => (least.map (mark ">=")).toList ++ (greatest.map (mark "<=")).toList

/-- The day of an instant, if the instant is the edge of that day; failing that a day for an instant before
1970, whose number has no literal, and the number for all others. Five digits keep it from reading as a
year. -/
def instantText (edge : Calendar.Period → Int) (millis : Int) : List Char :=
  match (Calendar.dayOf? millis).map Calendar.Date.text with
  | some day =>
    if (Calendar.Period.read? day).map edge = some millis then day
    else if millis < 0 then day
    else Number.paddedInt 5 millis
  | none => Number.paddedInt 5 millis

def exactPeriod? (first last : Int) : Option (List Char) := do
  let day ← (Calendar.dayOf? first).map Calendar.Date.text
  [day.take 4, day.take 7, day].find? fun cs => Calendar.Period.read? cs = some ⟨first, last⟩

def dateTexts (b : Bounds Int) : List (List Char) :=
  let ends := (b.least.map fun n => "date:>=".toList ++ instantText (·.first) n).toList
    ++ (b.greatest.map fun n => "date:<=".toList ++ instantText (·.last) n).toList
  match b with
  | ⟨some first, some last⟩ => match exactPeriod? first last with
    | some period => ["date:".toList ++ period]
    | none => ends
  | _ => ends

def regexText (r : RegexTest) : List Char :=
  fieldMark r.field ++ regexLiteral r.pattern.toList r.flags.toList

def texts (c : Compiled) : List (List Char) :=
  let terms (category : Category) (s : Stance) (vs : List String) :=
    vs.map fun v => term category v.toList s
  terms .source .is c.sources
    ++ terms .source .isNot c.excludedSources
    ++ terms .source .both c.spanningSources
    ++ terms .source .neither c.uncategorizedSources
    ++ terms .format .is c.formats
    ++ terms .format .isNot c.excludedFormats
    ++ (blankSplit ((c.search.map String.toList).getD [])).map (term .content · .is)
    ++ terms .content .isNot c.excludedTerms
    ++ c.phrases.map (fun p => quote p.toList)
    ++ c.regexes.map regexText
    ++ c.wildcards.map String.toList
    ++ terms .tags .is c.tags
    ++ terms .tags .isNot c.excludedTags
    ++ (c.dates.map dateTexts).getD []
    ++ boundTexts .words (· == ·) Number.digits c.words
    ++ boundTexts .quality Double.same Double.text c.quality
    ++ boundTexts .sim Double.same Double.text c.similarity

def toQuery (c : Compiled) : String := String.ofList ([' '].intercalate c.texts)

def labelWidth : Nat := 20

def label (c : Compiled) (count : Nat) : String :=
  let excluded := c.excludedSources.head?.or (c.excludedTags.head?.or c.excludedTerms.head?)
  let shortened (s : String) :=
    String.ofList (s.toList.take labelWidth) ++ if labelWidth < s.length then "..." else ""
  let parts : List String :=
    c.sources.head?.toList
      ++ (excluded.map fun v => s!"not {v}").toList
      ++ (c.search.map fun s => s!"\"{shortened s}\"").toList
      ++ (if c.regexes.isEmpty then [] else ["regex"])
      ++ (match c.words with
        | ⟨some a, some b⟩ => [s!"{a}-{b} words"]
        | ⟨some a, none⟩ => [s!">={a} words"]
        | ⟨none, some b⟩ => [s!"<={b} words"]
        | ⟨none, none⟩ => [])
      ++ (if c.dates.isSome then ["date range"] else [])
  (if parts.isEmpty then "All" else ", ".intercalate parts) ++ s!" ({count})"

end Compiled

end FilterQuery
