import ChainIndexer.Number.Numeral
import ChainIndexer.Schema.Field

/-!
The size of a page, leniently. A positive whole number counts, or a text that is the numeral of one
with blanks around it; everything else, truth values and fractions included, stands for the default,
and so does a number whose numeral is too long to be written.
-/

namespace ChainIndexer.Settings

def defaultPageSize : Int := 500

/-- The page size that a value stands for. -/
def pageSize (v : Value) (default : Int := defaultPageSize) : Int :=
  let size? := match v with
    | .int n => if Numeral.isWritable n then some n else none
    | .text s => Numeral.read? 10 (Text.strip s)
    | _ => none
  match size? with
  | some n => if 0 < n then n else default
  | none => default

theorem pageSize_pos (v : Value) (default : Int) (h : 0 < default) : 0 < pageSize v default := by
  unfold pageSize
  dsimp only
  split
  · split
    · assumption
    · exact h
  · exact h

/-- A reader of page sizes, which refuses nothing. -/
def pageSizeField : Schema.Reader Int := fun v => .ok (pageSize v)

end ChainIndexer.Settings
