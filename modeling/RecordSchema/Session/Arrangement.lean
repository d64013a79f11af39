import RecordSchema.Session.Build

/-!
# Arrangements

The entries of a map come in another order from one session to the next. A build that depends on it
may name another of several unknown verbs, show a key in another order, or write the entries of a
default in another order where their keys leave it open. An arrangement settles all this for a
session.
-/

namespace RecordSchema

namespace SessionError

/-- What else a failure may be told as. -/
inductive Retold : SessionError → SessionError → Prop where
  | same (e : SessionError) : Retold e e
  | attributes {place : Location} {cause cause' : Yaml.DecodeError} (h : cause.Retold cause') :
      Retold (.schema (.malformed place (.body (.attributes cause))))
        (.schema (.malformed place (.body (.attributes cause'))))

/-- The failure with the last of several names. -/
def ofLast : SessionError → SessionError
  | .schema (.malformed place (.body (.attributes cause))) =>
    .schema (.malformed place (.body (.attributes cause.ofLast)))
  | e => e

theorem retold_ofLast (e : SessionError) : e.Retold e.ofLast := by
  unfold ofLast
  split
  · next cause => exact .attributes cause.retold_ofLast
  · exact .same e

end SessionError

/-- How a session tells a failure and writes a bundle. -/
structure Arrangement where
  tell : SessionError → SessionError
  retold : ∀ e : SessionError, e.Retold (tell e)
  write : Built → Text
  shows : ∀ b : Built, b.format.bundle {} b.bundle = .ok b.output →
    b.format.Shows b.bundle (write b)

namespace Arrangement

/-- Everything in the order of the documents. -/
def asRead : Arrangement where
  tell e := e
  retold e := .same e
  write b := b.output
  shows _ h := Format.shows_of_bundle h

/-- Everything in the opposite order. -/
def backward : Arrangement where
  tell := SessionError.ofLast
  retold := SessionError.retold_ofLast
  write b := b.format.reversed b.bundle b.output
  shows _ h := Format.shows_reversed h

/-- The order turns from each session to the next. -/
def alternating (session : Nat) : Arrangement := if session % 2 = 1 then asRead else backward

/-- A bundle with its text in an arrangement. -/
def present (a : Arrangement) (b : Built) : Built := { b with output := a.write b }

/-- What is built in an arrangement. -/
def apply (a : Arrangement) : Except SessionError Built → Except SessionError Built
  | .error e => .error (a.tell e)
  | .ok b => .ok (a.present b)

end Arrangement

end RecordSchema
