import RecordStore.Error
import RecordStore.Json.Reader

/-!
# Paging

A search returns one page of rows, or all of them. Pages are counted from one. Their size is
limited by the configuration of the search, and by `Page.maxSize` whatever the configuration says.
-/

namespace RecordStore

/-- The limits of a search. -/
structure SearchLimits where
  /-- The page size of a search that names none. -/
  defaultPageSize : Nat := 20
  /-- The largest page size a search may ask for. -/
  maxPageSize : Nat := 1000
  deriving DecidableEq, Inhabited

/-- A page of results, counted from one. -/
structure Page where
  number : Nat
  size : Nat
  deriving DecidableEq, Inhabited

/-- The largest page size under any configuration. -/
def Page.maxSize : Nat := 1000

/-- The page size limit in effect. -/
def SearchLimits.sizeLimit (limits : SearchLimits) : Nat := min limits.maxPageSize Page.maxSize

namespace Page

/-- How many rows stand before the page. -/
def offset (page : Page) : Nat := (page.number - 1) * page.size

/-- The page itself, if it lies inside the limits; its number is checked first. -/
def check (limits : SearchLimits) (page : Page) : Except StoreError Page :=
  let limit := limits.sizeLimit
  if page.number < 1 then
    .error (.invalidPaging s!"page must be at least 1, got {page.number}")
  else if page.size < 1 ∨ limit < page.size then
    .error (.invalidPaging s!"page size must be between 1 and {limit}, got {page.size}")
  else .ok page

end Page

/-- How much of the result is wanted. -/
inductive Paging where
  /-- The first page in the configured size. -/
  | default
  | page (page : Page)
  /-- All rows. -/
  | unlimited
  deriving DecidableEq, Inhabited

namespace Paging

/-- The page to return, or none for all rows. -/
def resolve (limits : SearchLimits) : Paging → Except StoreError (Option Page)
  | default => (Page.check limits ⟨1, limits.defaultPageSize⟩).map some
  | page p => (Page.check limits p).map some
  | unlimited => .ok none

end Paging

/-! ### Stored forms -/

namespace SearchLimits

def toStored (limits : SearchLimits) : Value :=
  .ofFields [("default_page_size", .nat limits.defaultPageSize),
    ("max_page_size", .nat limits.maxPageSize)]

def ofStored : Reader SearchLimits := fun v => do
  let f ← Reader.fields ["default_page_size", "max_page_size"] v
  return {
    defaultPageSize := ← f.withDefault "default_page_size" 20 .nat32
    maxPageSize := ← f.withDefault "max_page_size" 1000 .nat32 }

end SearchLimits

namespace Page

def toStored (page : Page) : Value :=
  .ofFields [("number", .nat page.number), ("size", .nat page.size)]

def ofStored : Reader Page := fun v => do
  let f ← Reader.fields ["number", "size"] v
  return { number := ← f.required "number" .nat32, size := ← f.required "size" .nat32 }

end Page

namespace Paging

def toStored : Paging → Value
  | default => .string "Default"
  | page p => .ofFields [("Page", p.toStored)]
  | unlimited => .string "Unlimited"

/-- Only the page carries data, under its name. -/
def ofStored : Reader Paging
  | .object [("Page", v)] => (Page.ofStored v).map page
  | v => Reader.choice [("Default", default), ("Unlimited", unlimited)] v

end Paging

end RecordStore
