import IndexedMail.Query.Filter
import IndexedMail.Query.Word
import IndexedMail.Text.Quoted

/-!
# Search criteria

A query line asks for free text and for attribute filters: the words that are filters, in order,
and the other words joined by single spaces.
-/

namespace IndexedMail.Query

/-- A query line that cannot be cut into words. -/
structure SyntaxError where
  query : String
  cause : QuoteError
  deriving DecidableEq, Repr

namespace SyntaxError

def message (e : SyntaxError) : String :=
  "Cannot parse query " ++ Text.quoted e.query ++ ": " ++ e.cause.message

end SyntaxError

/-- The words of a query line. -/
def tokenize (query : String) : Except SyntaxError (List String) :=
  match words query.toList with
  | .ok tokens => .ok (tokens.map String.ofList)
  | .error cause => .error ⟨query, cause⟩

/-- What a query asks for: free text and filters. -/
structure Criteria where
  text : String
  filters : List Filter
  deriving DecidableEq, Repr

namespace Criteria

/-- The filters as arguments of a command, each behind the given switch. -/
def attributeArguments (c : Criteria) (switch : String) : List String :=
  c.filters.flatMap fun f => [switch, f.render]

/-- The switch that introduces a filter on the command line of the index tool. -/
def attributeSwitch : String := "-attr"

/-- The filters as diagnostic messages show them. -/
def describeFilters (c : Criteria) : String :=
  match c.filters.map (Filter.describe Text.quoted) with
  | [only] => "(" ++ only ++ ",)"
  | all => "(" ++ Text.commaSeparated all ++ ")"

/-- Sort words into free text and filters. -/
def ofWords (tokens : List String) : Criteria :=
  { text := String.intercalate " " (tokens.filter fun w => (parseFilter w.toList).isNone)
    filters := tokens.filterMap fun w => parseFilter w.toList }

theorem attributeArguments_length (c : Criteria) (switch : String) :
    (c.attributeArguments switch).length = 2 * c.filters.length := by
  unfold attributeArguments
  induction c.filters with
  | nil => rfl
  | cons f rest ih => simp [ih]; omega

/-- The criteria of a query line. -/
def ofQuery (query : String) : Except SyntaxError Criteria :=
  (tokenize query).map ofWords

theorem ofQuery_eq_ok_iff {query : String} {c : Criteria} :
    ofQuery query = .ok c ↔ ∃ tokens, tokenize query = .ok tokens ∧ ofWords tokens = c := by
  unfold ofQuery
  cases tokenize query <;> simp [Except.map]

theorem ofQuery_eq_error_iff {query : String} {e : SyntaxError} :
    ofQuery query = .error e ↔ tokenize query = .error e := by
  unfold ofQuery
  cases tokenize query <;> simp [Except.map]

theorem ofQuery_of_tokenize {query : String} {tokens : List String}
    (h : tokenize query = .ok tokens) : ofQuery query = .ok (ofWords tokens) :=
  ofQuery_eq_ok_iff.2 ⟨tokens, h, rfl⟩

end Criteria

end IndexedMail.Query
