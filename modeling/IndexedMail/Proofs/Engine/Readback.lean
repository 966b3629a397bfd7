import IndexedMail.Engine.Command
import IndexedMail.Proofs.Query.Expressions
import IndexedMail.Proofs.Query.Grammar

/-!
# Criteria read back from a command line

A command line has the arguments for the filters and the configured switches one behind the other,
with nothing between them.  For one server the number of the switches is known, so it is known
where they begin, and the command line tells the criteria that it was made for.
-/

namespace IndexedMail.Engine

open Query (Criteria readFilters?)
open Settings (Server)

/-- What stands between the limit and the switches of a server on a command line. -/
def attributesOf (s : Server) (argv : List String) : List String :=
  (argv.drop 5).take (argv.length - (s.switches.length + 7))

/-- A command line for a server tells the criteria behind it. -/
structure Tells (s : Server) (argv : List String) (c : Criteria) : Prop where
  count : (attributesOf s argv).length = 2 * c.filters.length
  filters : readFilters? Criteria.attributeSwitch (attributesOf s argv) = some c.filters
  text : argv.getLast? = some c.text

theorem Tells.unique {s : Server} {argv : List String} {c c' : Criteria} (h : Tells s argv c)
    (h' : Tells s argv c') : c = c' := by
  obtain ⟨text, filters⟩ := c
  obtain ⟨text', filters'⟩ := c'
  obtain rfl : text = text' := Option.some.inj (h.text.symm.trans h'.text)
  obtain rfl : filters = filters' := Option.some.inj (h.filters.symm.trans h'.filters)
  rfl

namespace Command

theorem attributesOf_argvWith (s : Server) (c : Criteria) (limit : String) :
    attributesOf s ((ofServer s c).argvWith limit) =
      c.attributeArguments Criteria.attributeSwitch := by
  have hlength : ((ofServer s c).argvWith limit).length - (s.switches.length + 7) =
      (c.attributeArguments Criteria.attributeSwitch).length := by
    rw [argvWith_length]
    simp only [ofServer]
    omega
  rw [attributesOf, hlength]
  simp [argvWith, ofServer]

theorem getLast?_argvWith (c : Command) (limit : String) :
    (c.argvWith limit).getLast? = some c.text := by
  rw [argvWith, List.getLast?_append]
  rfl

theorem exists_limit_of_argv {c : Command} {argv : List String} (h : c.argv = .ok argv) :
    ∃ limit, argv = c.argvWith limit := by
  obtain ⟨limit, -, hargv⟩ := Query.exists_of_map_eq_ok h
  exact ⟨limit, hargv⟩

theorem tells_of_argv {s : Server} {query : String} {c : Criteria}
    (hquery : Criteria.ofQuery query = .ok c) {argv : List String}
    (hargv : (ofServer s c).argv = .ok argv) : Tells s argv c := by
  obtain ⟨limit, rfl⟩ := exists_limit_of_argv hargv
  exact
    { count := by rw [attributesOf_argvWith, Criteria.attributeArguments_length]
      filters := by rw [attributesOf_argvWith, Criteria.readFilters?_attributeArguments hquery]
      text := getLast?_argvWith _ limit }

end Command

end IndexedMail.Engine
