import FilterQuery.Compiled
import FilterQuery.Json.Access
import FilterQuery.Json.Read

namespace FilterQuery

def RegexTest.toJson (r : RegexTest) : Json :=
  .object ([("pattern", .string r.pattern), ("flags", .string r.flags)]
    ++ Json.member? "field" (r.field.map .string))

open Json in
def RegexTest.ofJson? (j : Json) : Option RegexTest := do
  let j ← j.record? ["pattern", "flags", "field"]
  return ⟨← required? asString? "pattern" j, ← required? asString? "flags" j,
    ← optional? asString? "field" j⟩

namespace Json

def asInt64? : Json → Option Int
  | int n => if Number.fitsInt n then some n else none
  | _ => none

def asWord? : Json → Option Nat := asNatBelow? Number.wordLimit

def bounds? (read : Json → Option α) (least greatest : String) (j : Json) : Option (Bounds α) := do
  return ⟨← optional? read least j, ← optional? read greatest j⟩

def listMember (key : String) (f : α → Json) (items : List α) : List (String × Json) :=
  member? key (if items.isEmpty then none else some (.array (items.map f)))

end Json

namespace Page

def members (p : Page) : List (String × Json) :=
  [("limit", .ofNat p.limit), ("offset", .ofNat p.offset), ("orderBy", .string p.orderBy),
    ("orderDirection", .string p.direction.name)]

open Json in
def ofJson? (j : Json) : Option Page := do
  return ⟨← required? asWord? "limit" j, ← required? asWord? "offset" j, ← required? asString? "orderBy" j,
    ← required? (fun v => (choice? isNull v).bind Direction.ofName?) "orderDirection" j⟩

end Page

namespace Compiled

open Json

def datesJson (b : Bounds Int) : Json :=
  .object (member? "start" (b.least.map .int) ++ member? "end" (b.greatest.map .int))

def datesOfJson? (j : Json) : Option (Bounds Int) :=
  (j.record? ["start", "end"]).bind (bounds? asInt64? "start" "end")

def toJson (c : Compiled) : Json :=
  .object (listMember "sourceTypes" .string c.sources
    ++ listMember "excludeSourceTypes" .string c.excludedSources
    ++ listMember "spanningSourceTypes" .string c.spanningSources
    ++ listMember "uncategorizedSourceTypes" .string c.uncategorizedSources
    ++ listMember "formatTypes" .string c.formats
    ++ listMember "excludeFormatTypes" .string c.excludedFormats
    ++ member? "searchQuery" (c.search.map .string)
    ++ listMember "excludeSearchTerms" .string c.excludedTerms
    ++ listMember "regexPatterns" RegexTest.toJson c.regexes
    ++ listMember "phrases" .string c.phrases
    ++ listMember "wildcards" .string c.wildcards
    ++ listMember "tags" .string c.tags
    ++ listMember "excludeTags" .string c.excludedTags
    ++ member? "dateRange" (c.dates.map datesJson)
    ++ member? "minWords" (c.words.least.map ofNat)
    ++ member? "maxWords" (c.words.greatest.map ofNat)
    ++ member? "minQuality" (c.quality.least.map ofDouble)
    ++ member? "maxQuality" (c.quality.greatest.map ofDouble)
    ++ member? "minSimilarity" (c.similarity.least.map ofDouble)
    ++ member? "maxSimilarity" (c.similarity.greatest.map ofDouble)
    ++ c.page.members)

def keys : List String :=
  ["sourceTypes", "excludeSourceTypes", "spanningSourceTypes", "uncategorizedSourceTypes", "formatTypes",
    "excludeFormatTypes", "searchQuery", "excludeSearchTerms", "regexPatterns", "phrases", "wildcards", "tags",
    "excludeTags", "dateRange", "minWords", "maxWords", "minQuality", "maxQuality", "minSimilarity", "maxSimilarity",
    "limit", "offset", "orderBy", "orderDirection"]

def decode? (j : Json) : Option Compiled := do
  let j ← j.record? keys
  let strings (key : String) := withDefault? (listOf? asString?) key [] j
  return {
    sources := ← strings "sourceTypes"
    excludedSources := ← strings "excludeSourceTypes"
    spanningSources := ← strings "spanningSourceTypes"
    uncategorizedSources := ← strings "uncategorizedSourceTypes"
    formats := ← strings "formatTypes"
    excludedFormats := ← strings "excludeFormatTypes"
    search := ← optional? asString? "searchQuery" j
    excludedTerms := ← strings "excludeSearchTerms"
    regexes := ← withDefault? (listOf? RegexTest.ofJson?) "regexPatterns" [] j
    phrases := ← strings "phrases"
    wildcards := ← strings "wildcards"
    tags := ← strings "tags"
    excludedTags := ← strings "excludeTags"
    dates := ← optional? datesOfJson? "dateRange" j
    words := ← bounds? asWord? "minWords" "maxWords" j
    quality := ← bounds? asDouble? "minQuality" "maxQuality" j
    similarity := ← bounds? asDouble? "minSimilarity" "maxSimilarity" j
    page := ← Page.ofJson? j }

def ofJson? (page : Page) (j : Json) : Option Compiled := decode? (j.withDefaults page.members)

end Compiled

end FilterQuery
