import CampusID.Lib.Separated
import CampusID.Lib.Urls

/-!
# Query strings

A query is pairs with `&` between them, each a name and a value around its first `=`; of a name that
comes twice the first value counts (`value`).  `setValue` gives a name another value in the query
itself.  Everything is on characters.

A query is its pieces (`join_pieces`), and pieces without an `&` are those of their query
(`pieces_join`); so two queries of such pieces are one if their pieces are.
-/

namespace CampusID
namespace Lib
namespace Queries

open Urls (before after)

/-- `query.split("&")`. -/
def pieces (query : List Char) : List (List Char) := query.splitOn '&'

/-- `"&".join(pieces)`. -/
def join (ps : List (List Char)) : List Char := ['&'].intercalate ps

/-- The name and the value of a piece: `pair.partition("=")`. -/
def cut (piece : List Char) : List Char × List Char := (before '=' piece, after '=' piece)

/-- A piece of a name and a value. -/
def pair (name value : List Char) : List Char := name ++ '=' :: value

/-- The first value of a name. -/
def value (query name : List Char) : Option (List Char) := ((pieces query).map cut).lookup name

/-- The names of a query. -/
def names (query : List Char) : List (List Char) := (pieces query).map (before '=')

/-- The query with another value for a name. -/
def setValue (name value query : List Char) : List Char :=
  join ((pieces query).map fun piece => if before '=' piece = name then pair name value else piece)

/-- The query of a locator: what is between `?` and `#`. -/
def queryOf (url : List Char) : List Char := after '?' (before '#' url)

/-! ## Pieces -/

variable {query name val : List Char} {ps qs : List (List Char)} {piece : List Char}

theorem pieces_ne_nil (query : List Char) : pieces query ≠ [] := List.splitOn_ne_nil _ _

theorem join_pieces (query : List Char) : join (pieces query) = query := List.intercalate_splitOn _

theorem pieces_join (h : ∀ piece ∈ ps, '&' ∉ piece) (hne : ps ≠ []) : pieces (join ps) = ps :=
  List.splitOn_intercalate _ h hne

theorem notMem_of_mem_pieces (h : piece ∈ pieces query) : '&' ∉ piece := notMem_of_mem_splitOn h

theorem join_append (hps : ps ≠ []) (hqs : qs ≠ []) :
    join (ps ++ qs) = join ps ++ '&' :: join qs := intercalate_append hps hqs

theorem join_singleton (piece : List Char) : join [piece] = piece := List.intercalate_singleton

theorem cut_pair (h : '=' ∉ name) : cut (pair name val) = (name, val) :=
  Prod.ext (Urls.before_cut h) (Urls.after_cut h)

theorem before_pair (h : '=' ∉ name) : before '=' (pair name val) = name := Urls.before_cut h

/-- Setting a name on a piece sets it where it is the name of the piece. -/
theorem set_pair {other w : List Char} (h : '=' ∉ other) :
    (if before '=' (pair other w) = name then pair name val else pair other w) =
      pair other (if other = name then val else w) := by
  rw [before_pair h]
  split_ifs with hname
  · rw [hname]
  · rfl

theorem pair_injective : Function.Injective (pair name) := by
  intro v w h
  exact List.tail_eq_of_cons_eq (List.append_cancel_left h)

theorem exists_value (h : name ∈ names query) : ∃ val, value query name = some val := by
  obtain ⟨piece, hmem, hname⟩ := List.mem_map.mp h
  refine Option.isSome_iff_exists.mp (List.lookup_isSome_iff.mpr ?_)
  exact ⟨cut piece, List.mem_map_of_mem hmem, beq_iff_eq.mpr hname.symm⟩

theorem exists_piece (h : value query name = some val) :
    ∃ piece ∈ pieces query, cut piece = (name, val) := by
  obtain ⟨first, rest, hsplit, -⟩ := List.lookup_eq_some_iff.mp h
  have hmem : (name, val) ∈ (pieces query).map cut := by
    rw [hsplit]
    exact List.mem_append_right _ List.mem_cons_self
  exact List.mem_map.mp hmem

theorem mem_names (h : value query name = some val) : name ∈ names query := by
  obtain ⟨piece, hpiece, hcut⟩ := exists_piece h
  exact List.mem_map.mpr ⟨piece, hpiece, congrArg Prod.fst hcut⟩

theorem notMem_value (h : value query name = some val) : '&' ∉ val := by
  obtain ⟨piece, hpiece, hcut⟩ := exists_piece h
  obtain rfl : Urls.after '=' piece = val := congrArg Prod.snd hcut
  exact fun hand => notMem_of_mem_pieces hpiece (Urls.after_suffix.subset hand)

/-- A name that no piece has is given no value by them. -/
theorem lookup_of_notMem {rest : List (List Char × List Char)} (h : name ∉ ps.map (before '=')) :
    (ps.map cut ++ rest).lookup name = rest.lookup name := by
  induction ps with
  | nil => rfl
  | cons p ps ih =>
    rw [List.map_cons, List.mem_cons, not_or] at h
    rw [List.map_cons, List.cons_append, List.lookup_cons]
    have hne : (name == (cut p).1) = false := beq_false_of_ne h.1
    rw [hne]
    exact ih h.2

theorem map_set_of_notMem (h : name ∉ ps.map (before '=')) :
    (ps.map fun piece => if before '=' piece = name then pair name val else piece) = ps := by
  refine (List.map_congr_left fun piece hpiece => ?_).trans (List.map_id _)
  exact if_neg fun hname => h (List.mem_map.mpr ⟨piece, hpiece, hname⟩)

/-! ## The query of a locator -/

theorem queryOf_of_notMem {url : List Char} (h : '#' ∉ url) : queryOf url = after '?' url := by
  rw [queryOf, Urls.before_of_notMem h]

end Queries
end Lib
end CampusID
