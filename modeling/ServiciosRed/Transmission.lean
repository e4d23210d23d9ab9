import ServiciosRed.Queries
import ServiciosRed.Programs

namespace ServiciosRed.Transmission

open Text Lexer MySQL Schema Calendar Interleaving Statements Server Programs Requests Queries

section Engines

variable [Engine]

/-- What the server makes of texts that it does not read as one literal for each value. -/
structure Servidor where
  halla : Texto → BD → Bool
  ejecuta : Texto → List (Step BD)

namespace Servidor

variable (s : Servidor)

/-- The test on the rows of a SELECT. -/
def mira (consulta : Statement) (g : Step BD) : Step BD :=
  if lex consulta.text = some consulta.tokens then g else guard fun bd ↦ s.halla consulta.text bd

/-- The statements of a request, SELECTs and a CALL at the end, with the steps that they stand
for. -/
def envia : List Statement → List (Step BD) → List (Step BD)
  | [], pasos => pasos
  | [llamada], pasos =>
    if lex llamada.text = some llamada.tokens then pasos else s.ejecuta llamada.text
  | _ :: _ :: _, [] => []
  | consulta :: c :: cs, g :: pasos => s.mira consulta g :: envia (c :: cs) pasos

def pasos (ahora : Reloj) (p : Peticion) : List (Step BD) :=
  if p.aceptada ahora then s.envia (p.consultas ahora) (p.pasos ahora) else rechazada

end Servidor

variable {s : Servidor} {ahora : Reloj} {p : Peticion}

theorem envia_of_faithful {cs : List Statement} (h : ∀ c ∈ cs, Faithful c)
    (pasos : List (Step BD)) :
    s.envia cs pasos = pasos := by
  induction cs generalizing pasos with
  | nil => rfl
  | cons c cs ih =>
    obtain ⟨hc, hcs⟩ := List.forall_mem_cons.mp h
    cases cs with
    | nil => exact if_pos hc
    | cons c' cs =>
      cases pasos with
      | nil => rfl
      | cons g pasos =>
        have hmira : s.mira c g = g := if_pos hc
        rw [Servidor.envia, ih hcs, hmira]

/-- Every server takes the steps of a request whose values keep to their literals. -/
theorem pasos_of_limpia (hp : p.Limpia) : s.pasos ahora p = p.pasos ahora := by
  by_cases h : p.aceptada ahora
  · rw [Servidor.pasos, if_pos h]
    exact envia_of_faithful ((consultas_faithful_iff ahora p h).mpr hp) _
  · rw [Servidor.pasos, if_neg h, pasos_of_not_aceptada h]

end Engines

def sordo : Servidor := ⟨fun _ _ ↦ false, fun _ ↦ rechazada⟩

end ServiciosRed.Transmission
