import SiriusGateway.Adapters.Native
import SiriusGateway.Js.TextDecoder

/-!
# `Correctness.Chunking` — a stream parser reads bytes, not chunks

Between the network and `splitLines` stands a streaming `TextDecoder`. A body arrives as chunks of bytes, cut
anywhere: inside a character, inside `data: `, inside a line end. What a parser emits depends on the bytes and
on how the body ends, and on nothing else.

## Contents
- **Bodies of bytes.** `ByteBody`, its `decode`, and the text that has (`text_decode`).
- **The parsers.** `parseStream_of_bytes`.
-/

namespace Sirius

open Js

/-! ## Bodies of bytes -/

/-- A response body as it arrives: the values of successive `reader.read()` calls, and its end. -/
structure ByteBody where
  chunks : List (List UInt8)
  ending : BodyEnding

/-- The bytes of the chunks. -/
def ByteBody.bytes (body : ByteBody) : List UInt8 := body.chunks.flatten

/-- The body after `decoder.decode(value, { stream: true })` on every chunk. No call flushes the decoder: the
    bytes of an unfinished last character are dropped. -/
def ByteBody.decode (d : TextDecoder) (body : ByteBody) : HttpBody :=
  ⟨d.decodeChunks d.init body.chunks, body.ending⟩

@[simp] theorem ending_decode (d : TextDecoder) (body : ByteBody) :
    (body.decode d).ending = body.ending := rfl

/-- **The text of a decoded body** is that of its bytes. -/
theorem text_decode (d : TextDecoder) (body : ByteBody) :
    (body.decode d).text = d.decodeAll body.bytes :=
  d.flatMap_decodeChunks d.init body.chunks

/-! ## The parsers -/

/-- The lines of a body are those of its text. -/
theorem lines_congr {a b : HttpBody} (htext : a.text = b.text) (hending : a.ending = b.ending) :
    a.lines = b.lines := by
  unfold HttpBody.lines
  rw [htext, hending]

/-- **A parser sees the text and the end** of a body. -/
theorem LineParser.parseStream_congr {σ : Type} (p : LineParser σ) {a b : HttpBody}
    (htext : a.text = b.text) (hending : a.ending = b.ending) : p.parseStream a = p.parseStream b := by
  rw [p.parseStream_eq a, p.parseStream_eq b, lines_congr htext hending, hending]

/-- **Where the bytes are cut makes no difference** to what any of the parsers emits, nor to how it ends. The
    identifiers the Ollama parser makes up come from one supply, in order. -/
theorem parseStream_of_bytes (d : TextDecoder) (freshId : Nat → String) (n : Native) {a b : ByteBody}
    (hbytes : a.bytes = b.bytes) (hending : a.ending = b.ending) :
    n.parseStream freshId (a.decode d) = n.parseStream freshId (b.decode d) := by
  have htext : (a.decode d).text = (b.decode d).text := by
    rw [text_decode, text_decode, hbytes]
  cases n with
  | openai => exact OpenAi.parser.parseStream_congr htext hending
  | anthropic => exact Anthropic.parser.parseStream_congr htext hending
  | ollama => exact (Ollama.parser freshId).parseStream_congr htext hending

/-- `{"message":{"content":"é"}}` cut inside the `é`, with an empty chunk between. -/
theorem parseStream_of_bytes_split :
    Native.ollama.parseStream toString (ByteBody.decode utf8
      ⟨[(encodeUtf8 "\x7b\"message\":\x7b\"content\":\"é\"\x7d\x7d\n").take 24, [],
        (encodeUtf8 "\x7b\"message\":\x7b\"content\":\"é\"\x7d\x7d\n").drop 24], .closed⟩) =
    Native.ollama.parseStream toString (ByteBody.decode utf8
      ⟨[encodeUtf8 "\x7b\"message\":\x7b\"content\":\"é\"\x7d\x7d\n"], .closed⟩) :=
  parseStream_of_bytes utf8 toString .ollama
    (by
      show List.flatten [_, [], _] = List.flatten [_]
      simp only [List.flatten_cons, List.flatten_nil, List.append_nil, List.nil_append, List.take_append_drop])
    rfl

example : (Native.ollama.parseStream toString (ByteBody.decode utf8
      ⟨[(encodeUtf8 "\x7b\"message\":\x7b\"content\":\"é\"\x7d\x7d\n").take 24, [],
        (encodeUtf8 "\x7b\"message\":\x7b\"content\":\"é\"\x7d\x7d\n").drop 24], .closed⟩)).events =
    [.contentDelta (.json (.str "é"))] := by decide +kernel

end Sirius
