import PatchouliLib.Search.Index

/-!
# Transactions of the database

A write runs inside one immediate transaction.  Before the commit the pages it
has marked are projected again; the deferred foreign keys are checked at the
commit; any failure on the way rolls everything back.

## Main definitions

* `immediateTransaction` — run a body over the database.
* `rebuildDatabase` — the rebuild of the search index as a transaction.
-/

namespace PatchouliLib

open Foundation

variable [Platform]

/-- The part of a transaction that follows its body. -/
def finishTransaction {α : Type} (result : α) (c : Connection) (search : SearchTables) :
    Except Err (α × Db) := do
  let flushed ← flushDirtySince search.info.dirtySequence c.store (search.markAll c.dirtied)
  Fallible.check (DeferredForeignKeys c.store) .integrity
  pure (result, ⟨c.store, flushed⟩)

/-- Run a body, flush the index and commit. -/
def runTransaction {α : Type} (body : Write α) (db : Db) : Except Err (α × Db) := do
  let (result, c) ← body ⟨db.store, []⟩
  finishTransaction result c db.search

/-- Run a body inside one immediate transaction: it commits, or it leaves the
database as it was. -/
def immediateTransaction {α : Type} (body : Write α) (db : Db) : Except Err α × Db :=
  match runTransaction body db with
  | .ok (result, db') => (.ok result, db')
  | .error e => (.error e, db)

/-- Rebuild the search index as one transaction. -/
def rebuildDatabase (createdAt completedAt : ℤ) (db : Db) : Except Err Unit × Db :=
  match rebuildSearchIndex createdAt completedAt db.store db.search with
  | .ok search => (.ok (), { db with search := search })
  | .error e => (.error e, db)

end PatchouliLib
