import RecordSchema.Store.Output

/-!
# Storage of sessions

What a session needs of its surroundings: documents to read and a place to write to.
-/

namespace RecordSchema

/-- The operations on a state that holds documents and output. -/
structure Storage (σ : Type) where
  source : σ → Source
  /-- The state after documents have been read. -/
  noteReads : List Text → σ → σ
  /-- Makes a directory. -/
  ensure : Text → σ → Except OutputError Unit × σ
  /-- Writes a file and answers whether it was changed. -/
  write : Text → Text → σ → Except OutputError Bool × σ

/-- Documents and output in memory. -/
structure Memory where
  library : Library := {}
  shelf : Shelf := {}
  deriving DecidableEq, Repr

namespace Storage

def memory : Storage Memory where
  source m := m.library.source
  noteReads paths m := { m with library := m.library.countReads paths }
  ensure directory m := (.ok (), { m with shelf := m.shelf.ensure directory })
  write path content m :=
    let (result, shelf) := m.shelf.write path content
    (result, { m with shelf })

def disk : Storage Disk where
  source d := d.source
  noteReads _ d := d
  ensure directory d := d.ensure directory
  write path content d := d.write path content

end Storage

end RecordSchema
