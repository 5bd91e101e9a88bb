import AndonConsole.Spi
import AndonConsole.Lib.Overlay

/-!
The display controller.

What the bytes on the wire mean to the panel: a byte with D/C low is a command
and the bytes after it are its arguments. Two commands set the columns and the
rows of a window, and the bytes after a third fill the window with colours, row
by row and from its start again once it is full; a colour is taken with its
third byte. Other commands have no effect on the picture.
-/

namespace AndonConsole

open Lib (overlay)
open SpiM (caset paset ramwr colorBytes)

structure Controller where
  command : UInt8
  args : List UInt8
  sc : ℕ
  ec : ℕ
  sp : ℕ
  ep : ℕ
  count : ℕ
  pixels : Pixel → Color

namespace Controller

/-- A controller after a reset, with anything in its memory. -/
def reset (pixels : Pixel → Color) : Controller where
  command := 0
  args := []
  sc := 0
  ec := 0
  sp := 0
  ep := 0
  count := 0
  pixels := pixels

def place (c : Controller) (n : ℕ) : Pixel :=
  ((c.sc : ℤ) + (n : ℤ) % ((c.ec : ℤ) - c.sc + 1),
   (c.sp : ℤ) + (n : ℤ) / ((c.ec : ℤ) - c.sc + 1) % ((c.ep : ℤ) - c.sp + 1))

/-- Two bytes, the high one first. -/
def coord (high low : UInt8) : ℕ := 256 * high.toNat + low.toNat

def argument (c : Controller) (b : UInt8) : Controller :=
  let c := { c with args := c.args ++ [b] }
  if c.command = caset then
    match c.args with
    | [h1, l1, h2, l2] => { c with sc := coord h1 l1, ec := coord h2 l2 }
    | _ => c
  else if c.command = paset then
    match c.args with
    | [h1, l1, h2, l2] => { c with sp := coord h1 l1, ep := coord h2 l2 }
    | _ => c
  else if c.command = ramwr then
    match c.args with
    | [red, green, blue] =>
        { c with
          args := []
          count := c.count + 1
          pixels := Function.update c.pixels (c.place c.count) ⟨red, green, blue⟩ }
    | _ => c
  else c

/-- A byte on the wire, with the level of the D/C pin. -/
def receive (c : Controller) (b : Bool × UInt8) : Controller :=
  if b.1 then c.argument b.2 else { c with command := b.2, args := [], count := 0 }

def stream (ts : List Transfer) : List (Bool × UInt8) :=
  ts.flatMap fun t => t.bytes.map fun b => (t.dc, b)

def receiveAll (c : Controller) (ts : List Transfer) : Controller :=
  (stream ts).foldl receive c

@[simp] theorem stream_nil : stream [] = [] := rfl

@[simp] theorem stream_cons (t : Transfer) (ts : List Transfer) :
    stream (t :: ts) = (t.bytes.map fun b => (t.dc, b)) ++ stream ts := rfl

@[simp] theorem stream_append (ts us : List Transfer) :
    stream (ts ++ us) = stream ts ++ stream us := by
  simp [stream]

theorem receiveAll_append (c : Controller) (ts us : List Transfer) :
    c.receiveAll (ts ++ us) = (c.receiveAll ts).receiveAll us := by
  simp [receiveAll, List.foldl_append]

def windowStream (h1 l1 h2 l2 h3 l3 h4 l4 : UInt8) : List (Bool × UInt8) :=
  [(false, caset), (true, h1), (true, l1), (true, h2), (true, l2),
   (false, paset), (true, h3), (true, l3), (true, h4), (true, l4)]

theorem foldl_windowStream (c : Controller) (h1 l1 h2 l2 h3 l3 h4 l4 : UInt8) :
    (windowStream h1 l1 h2 l2 h3 l3 h4 l4).foldl receive c =
      { c with
        command := paset
        args := [h3, l3, h4, l4]
        sc := coord h1 l1
        ec := coord h2 l2
        sp := coord h3 l3
        ep := coord h4 l4
        count := 0 } := by
  simp [windowStream, receive, argument, caset, paset]

/-- A controller that is being sent colours: `n` have come. -/
structure Filling (c : Controller) (n : ℕ) : Prop where
  command : c.command = ramwr
  args : c.args = []
  count : c.count = n

/-- What colours from the `n`-th on put in the window. -/
def fills (c : Controller) (n : ℕ) (colors : List Color) : List PixelWrite :=
  (colors.zipIdx n).map fun p => (c.place p.2, p.1)

theorem Filling.color {c : Controller} {n : ℕ} (h : c.Filling n) (color : Color) :
    [(true, color.r), (true, color.g), (true, color.b)].foldl receive c =
      { c with
        count := n + 1
        pixels := Function.update c.pixels (c.place n) color } := by
  obtain ⟨hcommand, hargs, rfl⟩ := h
  simp [receive, argument, hcommand, hargs, caset, paset, ramwr, place]

theorem Filling.rest {c : Controller} {n : ℕ} (h : c.Filling n) {rest : List UInt8}
    (hrest : rest.length < 3) :
    ((rest.map fun b => (true, b)).foldl receive c).pixels = c.pixels := by
  obtain ⟨hcommand, hargs, -⟩ := h
  rcases rest with _ | ⟨b, _ | ⟨b', _ | _⟩⟩
  · rfl
  · simp [receive, argument, hcommand, hargs, caset, paset, ramwr]
  · simp [receive, argument, hcommand, hargs, caset, paset, ramwr]
  · simp at hrest
    omega

/-- **Colours fill the window.** -/
theorem Filling.colors {c : Controller} {n : ℕ} (h : c.Filling n) (colors : List Color)
    {rest : List UInt8} (hrest : rest.length < 3) :
    (((colorBytes colors ++ rest).map fun b => (true, b)).foldl receive c).pixels =
      overlay (c.fills n colors) c.pixels := by
  induction colors generalizing c n with
  | nil => exact h.rest hrest
  | cons color colors ih =>
      have hbytes : ((colorBytes (color :: colors) ++ rest).map fun b => (true, b)) =
          [(true, color.r), (true, color.g), (true, color.b)] ++
            (colorBytes colors ++ rest).map fun b => (true, b) := rfl
      rw [hbytes, List.foldl_append, h.color color]
      exact ih ⟨h.command, h.args, rfl⟩

end Controller

end AndonConsole
