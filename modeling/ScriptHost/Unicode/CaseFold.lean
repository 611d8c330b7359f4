import ScriptHost.Unicode.CharSet

/-!
# Letters that differ in case alone

Two characters differ in case alone if simple case folding makes them the same.  The table links the first of such
characters with each of the others, so that two steps along links lead from any of them to any other.
-/

namespace ScriptHost.Unicode

/-- Characters that are linked with those at a fixed distance after them. -/
structure CaseLink where
  first : Nat
  count : Nat
  /-- The distance of one of these characters from the next. -/
  stride : Nat
  distance : Nat

/-- The links, each written as first character, count, stride and distance in digits of base 36. -/
private def linkTable : String :=
  String.join [
  "1t.q.1.w 23.1.1.6hr 2b.1.1.8c 51.1.1.kn 51.1.1.lj 5c.n.1.w 5h.1.1.6ee 60.7.1.w 67.1.1.5vj 73.1.1.3d 74.o.2.1 ",
  "8i.3.2.1 8p.8.2.1 96.n.2.1 ah.3.2.1 ao.1.1.5f ap.1.1.5u aq.2.2.1 au.1.1.5q av.1.1.1 ax.2.1.5p az.1.1.1 ",
  "b2.1.1.27 b3.1.1.5m b4.1.1.5n b5.1.1.1 b7.1.1.5p b8.1.1.5r b9.1.1.2p ba.1.1.5v bb.1.1.5t bc.1.1.1 be.1.1.4j ",
  "bf.1.1.wu9 bg.1.1.5v bh.1.1.5x bi.1.1.3m bj.1.1.5y bk.3.2.1 bq.1.1.62 br.1.1.1 bt.1.1.62 bw.1.1.1 by.1.1.62 ",
  "bz.1.1.1 c1.2.1.61 c3.2.2.1 c7.1.1.63 c8.1.1.1 cc.1.1.1 cf.1.1.1k ck.1.1.1 ck.1.1.2 cn.1.1.1 cn.1.1.2 cq.1.1.1 ",
  "cq.1.1.2 ct.8.2.1 da.9.2.1 dt.1.1.1 dt.1.1.2 dw.1.1.1 e0.k.2.1 f6.9.2.1 fu.1.1.8bv fv.1.1.1 fy.1.1.8bs ",
  "fz.2.1.8cf g1.1.1.1 g4.1.1.1x g5.1.1.1z g6.5.2.1 gg.1.1.8bj gh.1.1.8bg gi.1.1.8bi gs.1.1.wnj gx.1.1.wnf ",
  "h0.1.1.wo7 h1.1.1.wmg h2.1.1.wn8 h6.1.1.wn8 h7.1.1.8af h8.1.1.wn5 hd.1.1.8al hp.1.1.89z hu.1.1.wn7 hz.1.1.wmi ",
  "il.1.1.wlx im.1.1.wlu n9.1.1.2c n9.1.1.38 n9.1.1.5mh og.2.2.1 om.1.1.1 or.3.1.3m ov.1.1.38 p2.1.1.12 p4.3.1.11 ",
  "p8.1.1.1s pa.2.1.1r pc.1.1.5kz pd.8.1.w pe.1.1.1q ph.1.1.2o pk.1.1.1l pk.1.1.2k pm.1.1.2e pm.2.1.w pp.5.1.w ",
  "ps.1.1.1i pt.1.1.28 pv.1.1.v pv.9.1.w py.1.1.1b q1.1.1.5tp q8.1.1.5kj r3.1.1.8 rc.c.2.1 s2.1.1.7 s7.1.1.1 ",
  "sa.1.1.1 sg.g.1.28 sw.w.1.w sy.1.1.4tq t0.1.1.4tp ta.1.1.4tg td.2.1.4te te.1.1.4tf tm.1.1.4t8 v4.h.2.1 ",
  "v6.1.1.4rp wa.r.2.1 xs.1.1.f xt.7.2.1 y8.1c.2.1 10x.12.1.1c 3a8.12.1.5ls 3bb.1.1.5ls 3bh.1.1.5ls 3bk.17.1.2bk ",
  "3ct.3.1.2bk 3vk.28.1.tzk 3xs.6.1.8 5mw.1.1.r7m 5mw.1.1.r7n 5mx.1.1.1 5tl.1.1.r9g 5tp.1.1.2xy 5u6.1.1.raw ",
  "5xc.23.2.1 600.1.1.1n 61s.1c.2.1 64g.8.1.8 64w.6.1.8 65c.8.1.8 65s.8.1.8 668.6.1.8 66p.4.2.8 674.8.1.8 ",
  "67k.2.1.22 67m.4.1.2e 67q.2.1.2s 67s.2.1.3k 67u.2.1.34 67w.2.1.3i 680.8.1.8 68g.8.1.8 68w.8.1.8 69c.2.1.8 ",
  "69f.1.1.9 69v.1.1.9 6a8.2.1.8 6ao.2.1.8 6at.1.1.7 6b7.1.1.9 6k2.1.1.s 6lc.g.1.g 6mb.1.1.1 792.q.1.q ",
  "8ow.1c.1.1c 8rk.1.1.1 8rr.3.2.1 8s2.1.1.1 8s5.1.1.1 8sg.1e.2.1 8vf.2.2.1 8vm.1.1.1 wu8.5.2.1 wuk.h.2.1 ",
  "ww0.e.2.1 x0i.7.2.1 x0y.v.2.1 x2x.2.2.1 x32.5.2.1 x3f.1.1.1 x3k.2.2.1 x3o.1.1.1c x3q.a.2.1 x4j.1.1.ps ",
  "x4k.8.2.1 x53.2.2.1 x58.8.2.1 x6d.1.1.1 1dl1.1.1.1 1ee9.q.1.w 1fcw.14.1.14 1fhs.10.1.14 1fn4.b.1.13 ",
  "1fng.f.1.13 1fnw.7.1.13 1fo4.2.1.13 1h1c.1f.1.1s 1h74.m.1.w 1jfk.w.1.w 20cg.w.1.w 20f4.p.1.r 2olc.y.1.y"]

/-- The links between characters that differ in case alone. -/
def caseLinks : List CaseLink :=
  (words linkTable).filterMap fun w =>
    match numbers w with
    | [first, count, stride, distance] => some ⟨first, count, stride, distance⟩
    | _ => none

/-- The ranges to which links that begin at `start` and end at `target` lead from `lo` to `hi`. -/
private def linked (l : CaseLink) (start target : Nat) (lo hi : Nat) : List (Nat × Nat) :=
  let last := start + (l.count - 1) * l.stride
  if hi < start ∨ last < lo then []
  else
    let low := (max lo start - start + l.stride - 1) / l.stride
    let high := (min hi last - start) / l.stride
    if l.stride = 1 then if low ≤ high then [(target + low, target + high)] else []
    else (List.range (high + 1 - low)).map fun i =>
      let c := target + (low + i) * l.stride
      (c, c)

/-- A set with the characters that are linked with those in it. -/
private def linkOnce (s : CharSet) : CharSet :=
  s.union (.ofRanges (s.flatMap fun (lo, hi) => caseLinks.flatMap fun l =>
    linked l l.first (l.first + l.distance) lo hi ++ linked l (l.first + l.distance) l.first lo hi))

/-- A set with all characters that differ from one in it in case alone. -/
def foldCase (s : CharSet) : CharSet := linkOnce (linkOnce s)

end ScriptHost.Unicode
