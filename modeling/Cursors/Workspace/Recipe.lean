/-
  Cursors.Workspace.Recipe
  ────────────────────────
  **WHAT A SCRIPT CAN HAVE MADE.**

  The functions of the library that a script can call: those that build
  iterators, and a few that convert, compare and check values.  Most
  iterators go by two names, that of the function that builds one and that
  of its class.
-/
namespace Cursors.Workspace

/-- A function of the library. -/
inductive Recipe where
  /-- The value itself if it has look-ahead, else a look-ahead over it. -/
  | adapted
  | peek
  /-- The shared iterator without elements. -/
  | sharedEmpty
  | empty
  | single
  /-- A single value with the choice whether it can be removed. -/
  | removableSingle
  | listSingle
  | window
  | listWindow
  | cursor
  /-- A read-only view; a view is not viewed again. -/
  | lent
  | readOnly
  /-- A read-only view in both directions; a view is not viewed again. -/
  | lentList
  | readOnlyList
  | filter
  | listFilter
  | transform
  /-- A chain of the arguments. -/
  | chainOf
  /-- A chain of the elements of its argument. -/
  | chain
  /-- A merge of the elements of its first argument. -/
  | mergeOf
  /-- A merge under its first argument. -/
  | merge
  | ring
  | listRing
  | flatten
  | buffer
  /-- A suitable iterator for any value. -/
  | suitable
  | list
  | errorMode
  | callSite
  | unindent
  | isInteger
  | plain
  | order
  | present
  | callable
  /-- A call of a function on behalf of an iterator. -/
  | evaluate
  /-- A suitable iterator for any value, a missing one included. -/
  | suitableForAny
  /-- The iterator that a value itself gives. -/
  | ownIterator
  /-- An interface, of which nothing can be made. -/
  | abstract
  | unknown
  deriving DecidableEq, Repr

namespace Recipe

/-- The names of the functions. -/
def names : List (String × Recipe) :=
  [("as_iterator", .adapted), ("IteratorWrapper", .peek), ("empty_iterator", .sharedEmpty),
   ("EmptyIterator", .empty), ("singleton_iterator", .single),
   ("SingletonIterator", .removableSingle), ("singleton_list_iterator", .listSingle),
   ("SingletonListIterator", .listSingle), ("array_iterator", .window),
   ("ArrayIterator", .window), ("array_list_iterator", .listWindow),
   ("ArrayListIterator", .listWindow), ("list_iterator", .cursor), ("ListIterator", .cursor),
   ("unmodifiable", .lent), ("UnmodifiableIterator", .readOnly),
   ("unmodifiable_list", .lentList), ("UnmodifiableListIterator", .readOnlyList),
   ("filtered", .filter), ("FilterIterator", .filter), ("filtered_list", .listFilter),
   ("FilterListIterator", .listFilter), ("transformed", .transform),
   ("TransformIterator", .transform), ("chained", .chainOf), ("IteratorChain", .chain),
   ("collated", .mergeOf), ("CollatingIterator", .merge), ("looping", .ring),
   ("LoopingIterator", .ring), ("looping_list", .listRing),
   ("LoopingListIterator", .listRing), ("object_graph", .flatten),
   ("ObjectGraphIterator", .flatten), ("to_list_iterator", .buffer),
   ("ListIteratorWrapper", .buffer), ("get_iterator", .suitable), ("to_list", .list),
   ("seterr", .errorMode), ("format_stack", .callSite), ("unindent", .unindent),
   ("isint", .isInteger), ("to_python_value", .plain), ("natural_order", .order),
   ("check_not_none", .present), ("check_callable", .callable),
   ("evaluate", .evaluate), ("_get_iterator", .suitableForAny),
   ("_lookup_iterator", .ownIterator), ("BaseIterator", .abstract),
   ("ResettableIterator", .abstract), ("BaseListIterator", .abstract),
   ("ProvidesIterator", .abstract)]

/-- The function of a name. -/
def ofName (name : String) : Recipe := (names.lookup name).getD .unknown

end Recipe

end Cursors.Workspace
