import ScriptHost.Unicode.CharSet

/-!
# Properties that characters have or lack

A row holds the names of a property in lower case, and a table of the ranges of characters that have it.
-/

namespace ScriptHost.Unicode

/-- The properties. -/
private def binaryTable : List (String × String) := [
  ("asciihexdigit ahex", "1c.9 8.5 r.5"),
  ("alphabetic alpha",
    String.join [
    "1t.p 7.p 1c b 5 6.m 2.u 2.cp 5.b f.4 8 2 2f u.h 2.1 3.3 2 7 2.2 2 2.j 2.2a 2.3u 9.4l 2.11 3 7.14 14.d 2 2.1 ",
    "2.1 2 9.q 5.3 u.a 6.1j 2.6 f.2t 2.7 5.7 5.2 b.2 3 h.1b e.2s p.w a.1 5 6.n 3.i k.o 8.a 6.n 2.6 8 9.15 b.b 4.6 ",
    "7.23 2.f 2.2 5.e e.i 2.7 3.1 3.l 2.6 2 4.3 4.7 3.1 3.1 2 9 5.1 2.4 d.1 b 5.2 2.5 5.1 3.l 2.6 2.1 2.1 2.1 5.4 ",
    "5.1 3.1 5 8.3 2 i.5 c.2 2.8 2.2 2.l 2.6 2.1 2.4 4.8 2.2 2.1 4 g.3 m.3 5.2 2.7 3.1 3.l 2.6 2.1 2.4 4.7 3.1 ",
    "3.1 a.1 5.1 2.4 e h.1 2.5 4.2 2.3 4.1 2 2.1 4.1 4.2 4.b 5.4 4.2 2.2 4 7 15.c 2.2 2.m 2.f 4.7 2.2 2.2 9.1 2.2 ",
    "2.1 3.3 t.3 2.7 2.2 2.m 2.9 2.4 4.7 2.2 2.2 9.1 6.2 2.3 e.2 d.c 2.2 2.14 3.7 2.2 2.2 2 6.3 8.4 n.5 2.2 2.h ",
    "4.n 2.8 2 3.6 9.5 2 2.7 j.1 e.1l 6.6 7 1g.1 2 2.4 2.n 2 2.i 2.2 3.4 2 7 f.3 x 1s.7 2.z 5.i 5.f 2.z 1w.1i 2 ",
    "3.4 h.1r b.3 3.11 2 6 3.16 2.98 2.3 3.6 2 2.3 3.14 2.3 3.w 2.3 3.6 2 2.3 3.e 2.1k 2.3 3.1u 12.f h.2d 3.5 ",
    "4.h7 3.g 2.p 6.22 4.a 8.j c.k d.j d.c 2.2 2.1 d.1f 3.i f 5 1w.2g 8.16 6.1x b.u 2.b 5.8 o.t 3.4 c.17 5.p 1j.r ",
    "5.1q 3.j 1f o.1 c.2 1e.1f 2.e 2.7 1g.15 3.3 b.17 2.a f.1i n.2 b.z 3.a 6.16 3.2 16.3 2.5 2.1 4 6.5b k.x c.7p ",
    "3.5 3.11 3.5 3.7 2 2 2 2.u 3.1g 2.6 2 4.2 2.6 4.3 3.5 5.c 6.2 2.6 39 e h.c 2u 5 3.9 2 4.4 7 2 2 2.3 2.a 3.3 ",
    "6.4 5 i.14 mm.1f 1ef.6c 7.3 4.1 d.11 2 6 3.1j 8 h.m a.6 2.6 2.6 2.6 2.6 2.6 2.6 2.6 2.v 1c d2.2 q.8 8.4 3.4 ",
    "5.2d 7.2 2.2h 2.3 6.16 2.2l i.v 1d.f e9.533 1t.h3g 1w.19 3.7g 4.f b.1 l.1a 6.7 4.34 14.8 3.2u 3.29 l.k 2.w ",
    "p.1f d.1v 2 19.5 4 2.2 b.w 6.y e.s 4.1e 2.b g h.f b.4 2.1i a.d j.m 4.1w 2 2 p.2 3.f 3.3 c.5 3.5 3.5 a.6 2.6 ",
    "2.16 2.d 7.3e m.8mb d.m 5.1c 6it.a5 3.2x 13.6 d.4 6.b 2.c 2.4 2 2.1 2.1 2.2z y.a2 j.1r 3.1h 15.b 39.4 2.3q ",
    "11.p 7.p c.2g 4.5 3.5 3.5 3.2 10.b 2.p 2.i 2.1 2.e 3.d z.3e 1y.1g 7g.s 4.1c 1c.v e.t 6.16 6.t 3.z 5.7 2.4 ",
    "17.4d j.z 5.z 5.13 9.1f d.a 2.e 2.6 2.1 2.a 2.e 2.6 2.1 4.1f d.8m a.l b.7 p.5 2.15 2.8 1y.5 3 2.17 2.1 4 3.m ",
    "b.m a.u 1u.i 2.1 b.l b.p 7.p 13.1j 7.1 1t.3 2.1 6.7 2.2 2.s 17.s 4.s 10.7 2.r s.1h b.l b.i e.h 33.20 1k.1e ",
    "e.1e e.13 z.r 4 6.m 6z.15 2.1 4.1 h.5 1f.2 4.s b 9.l 17.h 1b.k s.m a.1x 18.4 b.1k a e.o o.1e i.3 9.y 4 a.1r ",
    "2.3 a.1 b 2 10.h 2.x 3 7.3 1r.6 2 2.3 2.e 2.9 8.1k o.3 2.7 3.1 3.l 2.6 2.1 2.4 4.7 3.1 3.1 4 7 6.6 t.9 2 3 ",
    "2.11 2.9 2 3 2.3 2.1 4 2 19.1t 2.2 2.3 l.2 v.1t 3.1 2 55.1h 3.6 q.5 z.1q 2 4 1o.1h 3 20.q 3.d m.6 56.1k ",
    "2w.1r w.7 3 3.7 2.1 2.t 2.1 3.1 3.3 2m.7 3.19 3.5 2 2.1 s.1e 3.9 i.1z 6 j.20 2w.7 2h.w w.8 2.18 2.6 2 1e.t ",
    "3.l 2.d 22.6 2.1 2.17 4 2.1 2.2 2 3.1 p.5 2.1 2.10 2.1 2.3 2 o.17 79.m a.g 2.14 4.2 34 28.pl 2v.32 i.5f ",
    "219.2o g.tr i.5 q.32y 6.g6 5a2.1a 1ci.fs 8.u i.26 i.t j.1b h.3 w.k 6.i c1.18 5w.1r x.o 3.o 19.22 5.1k 8.g ",
    "1t.1 2 d.6 a.5p1 16.v 2q.36 6pq.3 2.6 2.1 2.82 g u.2 3 f.3 9.az 1s5.2y 6.c 4.8 8.9 5 4ma.2c 2.1y 2.1 3 3.1 ",
    "3.3 2.b 2 2.6 2.1s 2.3 3.7 2.6 2.r 2.3 2.4 2 4.6 2.9f 3.o 2.o 2.u 2.o 2.u 2.o 2.u 2.o 2.u 2.o 2.7 1f9.u 7.5 ",
    "5y.6 2.g 3.6 2.1 2.4 6.1p y 35.18 b.6 h 8y.t j.17 dh.r 6d.t 3 5s.u 2.l 9.1 69.6 2.3 2.1 2.e 2.5g 1o.1v 4 4 ",
    "xh.3 2.q 2.1 2 3 2.9 2.3 2 2 7 5 2 2 2.2 2.1 2 3 2 2 2 2 2.1 2 3.3 2.6 2.3 2.3 2 2.9 2.g 6.2 2.4 2.g hh.p ",
    "7.p 7.p 2uv.wyn x.3dp 3.4gd 3.5rk g.h9 1wj.f1 15v.3t6 6.6jt"]),
  ("bidicontrol bidic", "17g 54i.1 r.4 1k.3"),
  ("bidimirrored bidim",
    String.join [
    "14.1 j 2 t 2 u 2 1a g 2v3.3 1ge.1 1wd.1 b.1 1j.1 f.1 4y 5d.3 4.5 4 4.1 4.3 2.3 2 2 5.8 6 2.h 6.3 a.1 2 2.7 ",
    "2.v 3.3 6 a.1 3.i 6.1 a.4 3.1 5.n 3.f 9.3 l.1 8.1 u6.d 23 3.3 2.1 2.2 6.3 6.2 4.d b8.l 3.5 2.d 9 8.5 4 5.4 ",
    "2.1 3.4 5 2.2 3.1 b.5 3.1 d.i 2.3 3 2 3 2.3 6.1 7.2 p.1 c.1 5.3 2.1 3.1 5.16 3.7 2.13 6 2 4.4 6.2 5 4.4 2 75 ",
    "ec.3 4.1 2.1 f.1 3.9 18.7 bw.9 3.7 14qm.5 6.1 4j.1 j 2 t 2 u 2 2.1 2.1 16k8 1m 1m 1m 1m"]),
  ("caseignorable ci",
    String.join [
    "13 7 c 10 2 20 5 2 5 3.1 e0.5b 5.1 5 a.1 2 70.6 5s 6 1e.18 2 2.1 2.1 2 19 c.5 b.a 2 10 b.k h 2u.7 2.9 2.3 y ",
    "2 v.q 2k.a 1n.a 5 3 p.n 18.2 19 8.1 6.8 16.1l 1k 2 5.7 5 4.6 b.1 e g 1n 5.3 9 l.1 r 3.1 1m 5.1 5.1 3.2 4 v.1 ",
    "4 c.1 1m 5.4 2.1 5 l.1 n.5 2 1n 3 2.3 9 8.1 c.1 v 1q d 1f 4 1k 2.2 6.2 2.3 8.1 c.1 u 1n 3 7 6.1 l.1 t.1 1m.1 ",
    "5.3 9 l.1 u 21 8.2 2 2j 3.6 c.8 2r 3.8 a 2.6 22.1 s 2 2 1k.d 2.4 2.1 6.a 2.z a 2v.3 2.5 2.1 3.1 q.1 5.2 h.3 ",
    "e 3.1 7 g 2n gx.2 qb.2 u.1 v.1 v.1 1t.1 2.6 9 3.a 4 6 1a.4 1g 1u.1 z 3b.2 5.1 a 7.2 64.1 3 1n 2.6 2 2 3.7 ",
    "7.9 3 14 9.19 3.b l.3 1d 2.4 2 6 15.8 d.1 x.3 3.1 2.2 1l 2.1 4 2.2 1n.7 3.1 1t.5 2b.2 2.c 2.6 5 7 4.1 1f.1q ",
    "e z.2s ce 2.2 c.2 e.2 e.2 e.1 d.4 9.1 b 3 3.4 1e.4 2.9 2 e h.c 1g.w 2a4.1 36.2 3i g 2p.v 1c d2 11.3 4.4 6 ",
    "2m.5 2m.2 lxz yr.5 7j 2r.3 2.9 2 t.3 29.1 f.x 27 o.2 2v.3 4.1 9 4 5 q.1 6 48.1 r.h e 13.7 q.a 1b.2 1d 3.3 ",
    "3.1 i m.1 1v.5 3.1 3.1 d 9 10 c 1g 2.2 3.1 6.1 2 s f.1 6.1 2 2t.4 a.2 3e 3 5 fn5 44.g fy.f 4 d.f z 3 4q 8 7 ",
    "c 10 2 1c 1a.1 1w m.2 ea 6b 46.4 sm.5 2.15 2.8 g7.2 2.1 6.3 15.2 5 4m.1 fy.3 13 r.4 2 8s.1 p 1h.5 1z.a 1e.3 ",
    "3g 1j.e 16 3.1 b.2 1e.3 3.1 3 5 b 1f.2 11.4 2.7 1r d.1 1h.8 b.3 3 2o.2 3 2.1 7 3 4e 4.7 m.1 1m.1 4 12.6 4.4 ",
    "1z.5 e 2 2 f.1 2e.7 3.2 2 o 2d.5 2 5.1 2.1 6n.3 7.1 2.1 s.1 2e.7 3 2.1 2z 2 3.5 2 2u 2 3.3 2.4 78.8 2.1 75.1 ",
    "2 5 41.3 3.1 5 x.9 15.5 3.3 9 a.5 3.2 1b.c 2.1 5j 2.2 2 5m.6 2.5 2 2b.l 3.6 2.1 2.1 3f.5 4 2.1 2.6 2 21.1 4 ",
    "2 1u 7u.1 c.1 1h.4 6 2 o 446.g 7.e 8uh.b 4.2 1xd.4 1o.6 a.3 e5.2 15.1 df 1s.g 1t.1 2.1 e.1 cn1.3 2.6 2.1 ",
    "2hr.1 2.3 3ml.19 3.m f5.2 a.f 3.6 v.3 45.2 1j0.1i 5.1d 9 f n.4 2.e 11t.6 2.g 3.6 2.1 2.4 6.1p y 4h.d a9 1q.3 ",
    "e4.4 73.1 6s 3 8.1 6 a cx.6 32.7 240.4 gx6q v.2n 3l.6n"]),
  ("cased",
    String.join [
    "1t.p 7.p 1c b 5 6.m 2.u 2.5e 2.3 5.5r 3.y 8.1 v.4 2p 17.3 3.1 3.3 2 7 2.2 2 2.j 2.2a 2.3u 9.4l 2.11 a.14 ",
    "26w.11 2 6 3.16 2.3 ip.2d 3.5 1oj.a 6.16 3.2 1t.5b 1t.7p 3.5 3.11 3.5 3.7 2 2 2 2.u 3.1g 2.6 2 4.2 2.6 4.3 ",
    "3.5 5.c 6.2 2.6 39 e h.c 2u 5 3.9 2 4.4 7 2 2 2.3 2.5 5 3.3 6.4 5 i.v 4.1 mq.1f 1ef.6c 7.3 4.1 d.11 2 6 ",
    "nwz.19 j.t 3p.2t 4.3 2.24 l.5 2.2 mu.16 2.d 7.27 fnl.6 d.4 sq.p 7.p x2.27 2p.z 5.z 39.a 2.e 2.6 2.1 2.a 2.e ",
    "2.6 2.1 ck 3.2 2.15 2.8 xy.1e e.1e 2m.l b.l 26z.1r gv5.1r x.o 3.o jzh.2c 2.1y 2.1 3 3.1 3.3 2.b 2 2.6 2.1s ",
    "2.3 3.7 2.6 2.r 2.3 2.4 2 4.6 2.9f 3.o 2.o 2.u 2.o 2.u 2.o 2.u 2.o 2.u 2.o 2.7 1f9.9 2.j 7.5 7a.1p 1oz.1v ",
    "1kd.p 7.p 7.p"]),
  ("changeswhencasefolded cwcf",
    String.join [
    "1t.p 2j b.m 2.7 x 2 2 2 2 2 2 2 2 2 2 2 2 2 2 2 2 2 2 2 2 2 2 2 2 2 2 2 3 2 2 2 2 2 2 2 2.1 2 2 2 2 2 2 2 2 ",
    "2 2 2 2 2 2 2 2 2 2 2 2 2 2 2.1 2 2 2 2.1 2 2.1 2.2 3.3 2.1 2.2 4.1 2.1 2 2 2.1 2 3 2.1 2.2 2 2.1 4 8.1 2.1 ",
    "2.1 2 2 2 2 2 2 2 2 3 2 2 2 2 2 2 2 2 3.1 2 2.2 2 2 2 2 2 2 2 2 2 2 2 2 2 2 2 2 2 2 2 2 2 2 2 2 2 2 2 2 2 ",
    "8.1 2.1 3 2.3 2 2 2 2 6v 17 2 4 9 7 2.2 2 2.1 2.g 2.8 n d.2 4.1 2 2 2 2 2 2 2 2 2 2 2 2 2.1 3.1 2 2.1 3.1e ",
    "1d 2 2 2 2 2 2 2 2 2 2 2 2 2 2 2 2 a 2 2 2 2 2 2 2 2 2 2 2 2 2 2 2 2 2 2 2 2 2 2 2 2 2 2 2.1 2 2 2 2 2 2 3 2 ",
    "2 2 2 2 2 2 2 2 2 2 2 2 2 2 2 2 2 2 2 2 2 2 2 2 2 2 2 2 2 2 2 2 2 2 2 2 2 2 2 2 2 2 2 2 2 2 3.11 1d 26x.11 2 ",
    "6 mj.5 1oj.9 7.16 3.2 8x 2 2 2 2 2 2 2 2 2 2 2 2 2 2 2 2 2 2 2 2 2 2 2 2 2 2 2 2 2 2 2 2 2 2 2 2 2 2 2 2 2 2 ",
    "2 2 2 2 2 2 2 2 2 2 2 2 2 2 2 2 2 2 2 2 2 2 2 2 2 2 2 2 2 2 2 2 6.1 3 2 2 2 2 2 2 2 2 2 2 2 2 2 2 2 2 2 2 2 ",
    "2 2 2 2 2 2 2 2 2 2 2 2 2 2 2 2 2 2 2 2 2 2 2 2 2 2 2 2 2 a.7 9.5 b.7 9.7 9.5 c 2 2 2 9.7 h.1b 3.2 3.5 6.2 ",
    "3.5 c.3 d.4 6.2 3.5 8a 4.1 7 1a.f k mr.p 1f5.1b 1d 2.2 3 2 2 2.3 2 3 9.2 2 2 2 2 2 2 2 2 2 2 2 2 2 2 2 2 2 2 ",
    "2 2 2 2 2 2 2 2 2 2 2 2 2 2 2 2 2 2 2 2 2 2 2 2 2 2 2 2 2 2 2 9 2 5 nym 2 2 2 2 2 2 2 2 2 2 2 2 2 2 2 2 2 2 ",
    "2 2 2 2 k 2 2 2 2 2 2 2 2 2 2 2 2 2 3s 2 2 2 2 2 2 4 2 2 2 2 2 2 2 2 2 2 2 2 2 2 2 2 2 2 2 2 2 2 2 2 2 2 2 2 ",
    "2 2 b 2 2.1 2 2 2 2 5 2 3 2 4 2 2 2 2 2 2 2 2 2 2.4 2.4 2 2 2 2 2 2 2 2.3 2 2.1 2 2 2 2 2 2 2 2 p or.27 ",
    "fnl.6 d.4 sq.p xy.13 3t.z 4d.a 2.e 2.6 2.1 1d7.1e 4e.l 27v.v gw1.v 1t.o o5k.x"]),
  ("changeswhencasemapped cwcm",
    String.join [
    "1t.p 7.p 1n b.m 2.u 2.1r 2.2b 2.r 3.d 3.1 2 5.2k 2.h 7.q 2.1 2 2.1 4.1 2.3 2.4 3 2.1 3 8 3 2.1 4.5 6 b.1 4n ",
    "17.3 3.1 4.2 2 7 2.2 2 2.j 2.1a 4.w 2.4 2.3o 9.4l 2.11 b.12 26x.11 2 6 3.16 3.2 ip.2d 3.5 1oj.a 6.16 3.2 56 ",
    "4 h 36.4b 3 2.39 3.5 3.11 3.5 3.7 2 2 2 2.u 3.1g 2.6 2 4.2 2.6 4.3 3.5 5.c 6.2 2.6 8a 4.1 7 s i.v 4.1 mq.1f ",
    "1ef.34 2.1 2.1 8.2t 8.3 4.1 d.11 2 6 nwz.19 j.r 3r.d 3.1p a.e 4.2 3.4 2.o 2.18 p.1 nx t.27 fnl.6 d.4 sq.p ",
    "7.p x2.27 2p.z 5.z 39.a 2.e 2.6 2.1 2.a 2.e 2.6 2.1 1c4.1e e.1e 2m.l b.l 26z.1r gv5.1r x.o 3.o o4t.1v"]),
  ("changeswhenlowercased cwl",
    String.join [
    "1t.p 2u.m 2.6 y 2 2 2 2 2 2 2 2 2 2 2 2 2 2 2 2 2 2 2 2 2 2 2 2 2 2 2 3 2 2 2 2 2 2 2 3 2 2 2 2 2 2 2 2 2 2 ",
    "2 2 2 2 2 2 2 2 2 2 2 2 2.1 2 2 4.1 2 2.1 2.2 3.3 2.1 2.2 4.1 2.1 2 2 2.1 2 3 2.1 2.2 2 2.1 4 8.1 2.1 2.1 2 ",
    "2 2 2 2 2 2 2 3 2 2 2 2 2 2 2 2 3.1 2 2.2 2 2 2 2 2 2 2 2 2 2 2 2 2 2 2 2 2 2 2 2 2 2 2 2 2 2 2 2 2 8.1 2.1 ",
    "3 2.3 2 2 2 2 82 2 4 9 7 2.2 2 2.1 2.g 2.8 10 9 2 2 2 2 2 2 2 2 2 2 2 6 3 2.1 3.1e 1d 2 2 2 2 2 2 2 2 2 2 2 ",
    "2 2 2 2 2 a 2 2 2 2 2 2 2 2 2 2 2 2 2 2 2 2 2 2 2 2 2 2 2 2 2 2 2.1 2 2 2 2 2 2 3 2 2 2 2 2 2 2 2 2 2 2 2 2 ",
    "2 2 2 2 2 2 2 2 2 2 2 2 2 2 2 2 2 2 2 2 2 2 2 2 2 2 2 2 2 2 2 2 2 2 3.11 28a.11 2 6 k3.2d 1p0 7.16 3.2 8x 2 ",
    "2 2 2 2 2 2 2 2 2 2 2 2 2 2 2 2 2 2 2 2 2 2 2 2 2 2 2 2 2 2 2 2 2 2 2 2 2 2 2 2 2 2 2 2 2 2 2 2 2 2 2 2 2 2 ",
    "2 2 2 2 2 2 2 2 2 2 2 2 2 2 2 2 2 2 2 a 2 2 2 2 2 2 2 2 2 2 2 2 2 2 2 2 2 2 2 2 2 2 2 2 2 2 2 2 2 2 2 2 2 2 ",
    "2 2 2 2 2 2 2 2 2 2 2 2 2 2 a.7 9.5 b.7 9.7 9.5 c 2 2 2 9.7 p.7 9.7 9.7 9.4 c.4 c.3 d.4 c.4 8a 4.1 7 1a.f k ",
    "mr.p 1f5.1b 1d 2.2 3 2 2 2.3 2 3 9.2 2 2 2 2 2 2 2 2 2 2 2 2 2 2 2 2 2 2 2 2 2 2 2 2 2 2 2 2 2 2 2 2 2 2 2 2 ",
    "2 2 2 2 2 2 2 2 2 2 2 2 2 9 2 5 nym 2 2 2 2 2 2 2 2 2 2 2 2 2 2 2 2 2 2 2 2 2 2 k 2 2 2 2 2 2 2 2 2 2 2 2 2 ",
    "3s 2 2 2 2 2 2 4 2 2 2 2 2 2 2 2 2 2 2 2 2 2 2 2 2 2 2 2 2 2 2 2 2 2 2 2 2 2 b 2 2.1 2 2 2 2 5 2 3 2 4 2 2 2 ",
    "2 2 2 2 2 2 2.4 2.4 2 2 2 2 2 2 2 2.3 2 2.1 2 2 2 2 2 2 2 2 p h7w.p xy.13 3t.z 4d.a 2.e 2.6 2.1 1d7.1e 4e.l ",
    "27v.v gw1.v 1t.o o5k.x"]),
  ("changeswhentitlecased cwt",
    String.join [
    "2p.p 1n 16.n 2.7 2 2 2 2 2 2 2 2 2 2 2 2 2 2 2 2 2 2 2 2 2 2 2 2 2 2 2 2 3 2 2 2 2 2 2 2.1 2 2 2 2 2 2 2 2 2 ",
    "2 2 2 2 2 2 2 2 2 2 2 2 2 2 3 2 2.2 3 2 3 4 6 3 4.2 3 3 2 2 3 5 3 4 2 3 4 2 5 2.1 2.1 2 2 2 2 2 2 2 2 2.1 2 ",
    "2 2 2 2 2 2 2 2.2 2 2 4 2 2 2 2 2 2 2 2 2 2 2 2 2 2 2 2 2 2 2 4 2 2 2 2 2 2 2 2 9 3.1 2 5 2 2 2 2.5 2.1 2 ",
    "2.1 4.1 2.3 2.4 3 2.1 3 8 3 2.1 4.5 6 b.1 4n 18 2 4 4.2 j s.y 2.1 4.2 2 2 2 2 2 2 2 2 2 2 2 2.4 2 3 3 1h.1b ",
    "2 2 2 2 2 2 2 2 2 2 2 2 2 2 2 2 2 a 2 2 2 2 2 2 2 2 2 2 2 2 2 2 2 2 2 2 2 2 2 2 2 2 2 2 3 2 2 2 2 2 2.1 2 2 ",
    "2 2 2 2 2 2 2 2 2 2 2 2 2 2 2 2 2 2 2 2 2 2 2 2 2 2 2 2 2 2 2 2 2 2 2 2 2 2 2 2 2 2 2 2 2 2 1e.12 2up.5 ",
    "1oj.8 2 6n 4 h 37 2 2 2 2 2 2 2 2 2 2 2 2 2 2 2 2 2 2 2 2 2 2 2 2 2 2 2 2 2 2 2 2 2 2 2 2 2 2 2 2 2 2 2 2 2 ",
    "2 2 2 2 2 2 2 2 2 2 2 2 2 2 2 2 2 2 2 2 2 2 2 2 2 2 2 2 2.6 6 2 2 2 2 2 2 2 2 2 2 2 2 2 2 2 2 2 2 2 2 2 2 2 ",
    "2 2 2 2 2 2 2 2 2 2 2 2 2 2 2 2 2 2 2 2 2 2 2 2.8 9.5 b.7 9.7 9.5 b.7 9.7 9.d 3.7 9.7 9.7 9.4 2.1 7 4.2 2.1 ",
    "9.3 3.1 9.7 b.2 2.1 9j y.f 5 ng.p 1fr.1b 2 4.1 2 2 2 7 3 b 2 2 2 2 2 2 2 2 2 2 2 2 2 2 2 2 2 2 2 2 2 2 2 2 2 ",
    "2 2 2 2 2 2 2 2 2 2 2 2 2 2 2 2 2 2 2 2 2 2 2 2 9 2 5 d.11 2 6 nx0 2 2 2 2 2 2 2 2 2 2 2 2 2 2 2 2 2 2 2 2 2 ",
    "2 k 2 2 2 2 2 2 2 2 2 2 2 2 2 3s 2 2 2 2 2 2 4 2 2 2 2 2 2 2 2 2 2 2 2 2 2 2 2 2 2 2 2 2 2 2 2 2 2 2 2 2 2 b ",
    "2 3 2 2 2 2 5 5 2.1 3 2 2 2 2 2 2 2 2 2 c 2 2 2 2 2 2 2 5 2 3 2 2 2 2 2 2 2 r nx t.27 fnl.6 d.4 tm.p y6.13 ",
    "3t.z 4c.a 2.e 2.6 2.1 1dw.1e 3i.l 27v.v gw1.v 1o.o o5r.x"]),
  ("changeswhenuppercased cwu",
    String.join [
    "2p.p 1n 16.n 2.7 2 2 2 2 2 2 2 2 2 2 2 2 2 2 2 2 2 2 2 2 2 2 2 2 2 2 2 2 3 2 2 2 2 2 2 2.1 2 2 2 2 2 2 2 2 2 ",
    "2 2 2 2 2 2 2 2 2 2 2 2 2 2 3 2 2.2 3 2 3 4 6 3 4.2 3 3 2 2 3 5 3 4 2 3 4 2 6.1 2.1 2.1 2 2 2 2 2 2 2 2.1 2 ",
    "2 2 2 2 2 2 2 2.1 2.1 2 4 2 2 2 2 2 2 2 2 2 2 2 2 2 2 2 2 2 2 2 4 2 2 2 2 2 2 2 2 9 3.1 2 5 2 2 2 2.5 2.1 2 ",
    "2.1 4.1 2.3 2.4 3 2.1 3 8 3 2.1 4.5 6 b.1 4n 18 2 4 4.2 j s.y 2.1 4.2 2 2 2 2 2 2 2 2 2 2 2 2.4 2 3 3 1h.1b ",
    "2 2 2 2 2 2 2 2 2 2 2 2 2 2 2 2 2 a 2 2 2 2 2 2 2 2 2 2 2 2 2 2 2 2 2 2 2 2 2 2 2 2 2 2 3 2 2 2 2 2 2.1 2 2 ",
    "2 2 2 2 2 2 2 2 2 2 2 2 2 2 2 2 2 2 2 2 2 2 2 2 2 2 2 2 2 2 2 2 2 2 2 2 2 2 2 2 2 2 2 2 2 2 1e.12 289.16 3.2 ",
    "l5.5 1oj.8 2 6n 4 h 37 2 2 2 2 2 2 2 2 2 2 2 2 2 2 2 2 2 2 2 2 2 2 2 2 2 2 2 2 2 2 2 2 2 2 2 2 2 2 2 2 2 2 2 ",
    "2 2 2 2 2 2 2 2 2 2 2 2 2 2 2 2 2 2 2 2 2 2 2 2 2 2 2 2 2 2 2.6 6 2 2 2 2 2 2 2 2 2 2 2 2 2 2 2 2 2 2 2 2 2 ",
    "2 2 2 2 2 2 2 2 2 2 2 2 2 2 2 2 2 2 2 2 2 2 2 2 2 2.8 9.5 b.7 9.7 9.5 b.7 9.7 9.d 3.1g 2.1 5 2 4.2 2.1 5 4.3 ",
    "3.1 9.7 b.2 2.1 5 9e y.f 5 ng.p 1fr.1b 2 4.1 2 2 2 7 3 b 2 2 2 2 2 2 2 2 2 2 2 2 2 2 2 2 2 2 2 2 2 2 2 2 2 2 ",
    "2 2 2 2 2 2 2 2 2 2 2 2 2 2 2 2 2 2 2 2 2 2 2 9 2 5 d.11 2 6 nx0 2 2 2 2 2 2 2 2 2 2 2 2 2 2 2 2 2 2 2 2 2 2 ",
    "k 2 2 2 2 2 2 2 2 2 2 2 2 2 3s 2 2 2 2 2 2 4 2 2 2 2 2 2 2 2 2 2 2 2 2 2 2 2 2 2 2 2 2 2 2 2 2 2 2 2 2 2 b 2 ",
    "3 2 2 2 2 5 5 2.1 3 2 2 2 2 2 2 2 2 2 c 2 2 2 2 2 2 2 5 2 3 2 2 2 2 2 2 2 r nx t.27 fnl.6 d.4 tm.p y6.13 ",
    "3t.z 4c.a 2.e 2.6 2.1 1dw.1e 3i.l 27v.v gw1.v 1o.o o5r.x"]),
  ("changeswhennfkccasefolded cwkcf",
    String.join [
    "1t.p 1y 8 2 3 2 3.3 3.2 2.2 2.m 2.7 x 2 2 2 2 2 2 2 2 2 2 2 2 2 2 2 2 2 2 2 2 2 2 2 2 2.2 2 3 2 2 2.2 2 2 2 ",
    "2.1 2 2 2 2 2 2 2 2 2 2 2 2 2 2 2 2 2 2 2 2 2 2 2.1 2 2 2 2.1 2 2.1 2.2 3.3 2.1 2.2 4.1 2.1 2 2 2.1 2 3 2.1 ",
    "2.2 2 2.1 4 8.9 2 2 2 2 2 2 2 3 2 2 2 2 2 2 2 2 3.3 2.2 2 2 2 2 2 2 2 2 2 2 2 2 2 2 2 2 2 2 2 2 2 2 2 2 2 2 ",
    "2 2 2 8.1 2.1 3 2.3 2 2 2 2 2q.8 w.5 3.4 2k.1 2.2 a x 2 2 2 4 4.1 5.6 2 2.1 2.g 2.8 n d.7 2 2 2 2 2 2 2 2 2 ",
    "2 2 2 2.2 2.1 2 2.1 3.1e 1d 2 2 2 2 2 2 2 2 2 2 2 2 2 2 2 2 a 2 2 2 2 2 2 2 2 2 2 2 2 2 2 2 2 2 2 2 2 2 2 2 ",
    "2 2 2 2.1 2 2 2 2 2 2 3 2 2 2 2 2 2 2 2 2 2 2 2 2 2 2 2 2 2 2 2 2 2 2 2 2 2 2 2 2 2 2 2 2 2 2 2 2 2 2 2 2 2 ",
    "2 2 2 2 2 3.11 1d 45 2h.3 kg.7 3h.1 2 2c 3 z.2 3 72.1 k6 3k 15.1 1b 1j a 5 5 5 d a 2.4 8 i a 5 5 5 d 6f.11 2 ",
    "6 1b 2r.1 ig.5 qf.1 2e.4 vl.9 7.16 3.2 31.2 2.a 2.h 2.r e z.10 1t 2 2 2 2 2 2 2 2 2 2 2 2 2 2 2 2 2 2 2 2 2 ",
    "2 2 2 2 2 2 2 2 2 2 2 2 2 2 2 2 2 2 2 2 2 2 2 2 2 2 2 2 2 2 2 2 2 2 2 2 2 2 2 2 2 2 2 2 2 2 2 2 2 2 2 2 2 ",
    "6.1 3 2 2 2 2 2 2 2 2 2 2 2 2 2 2 2 2 2 2 2 2 2 2 2 2 2 2 2 2 2 2 2 2 2 2 2 2 2 2 2 2 2 2 2 2 2 2 2 2 a.7 ",
    "9.5 b.7 9.7 9.5 c 2 2 2 9.7 2 2 2 2 2 2 2 3.1b 3.2 3.d 3.8 4 5.3 2.2 4 5.7 3.2 3.7 2.f 2 6 d.2 4.5 4.1 2.1 5 ",
    "2 9.2 e 8.i 3.q 2.c c 2g.3 2.2 2.a 2.1 3.4 3.2 2 2 2 2.3 2.a 2.5 5.4 7.1b 4 6 4j.1 2.1 6x.1 8m.3u 10i 2w.2 ",
    "2u 84.1b 1d 2.2 3 2 2 2.3 2 3 7.4 2 2 2 2 2 2 2 2 2 2 2 2 2 2 2 2 2 2 2 2 2 2 2 2 2 2 2 2 2 2 2 2 2 2 2 2 2 ",
    "2 2 2 2 2 2 2 2 2 2 2 2 9 2 5 3h 8g 2c d.5x 17 1i 2.2 2p.1 3 2o 1e.2l 4.d 2p.u 2.13 9.1a 2.an mkh 2 2 2 2 2 ",
    "2 2 2 2 2 2 2 2 2 2 2 2 2 2 2 2 2 k 2 2 2 2 2 2 2 2 2 2 2 2 2 2.1 3p 2 2 2 2 2 2 4 2 2 2 2 2 2 2 2 2 2 2 2 2 ",
    "2 2 2 2 2 2 2 2 2 2 2 2 2 2 2 2 2 2 9 2 2.1 2 2 2 2 5 2 3 2 4 2 2 2 2 2 2 2 2 2 2.4 2.4 2 2 2 2 2 2 2 2.3 2 ",
    "2.1 2 2 2 2 2 2 2 2 l.4 3.1 o3.3 a 7.27 f9d.7h 3 2 3.9 2 2 3.1 4.1v 3.2x 13.6 d.4 6 2.n 2.4 2 2.1 2.1 2.2z ",
    "y.a2 j.1r 3.1h 15.c 4.p n.k 3.b 2.i 2.3 5.2 2 2.3q 3 2.59 4.5 3.5 3.5 3.2 4.6 2.6 2.8 so.13 3t.z 4d.a 2.e ",
    "2.6 2.1 do.4 2.15 2.8 xy.1e 4e.l 27v.v gw1.v 1t.o fe0.3 377.z v9.6 f.7 1t.5 g0.2c 2.1y 2.1 3 3.1 3.3 2.b 2 ",
    "2.6 2.1s 2.3 3.7 2.6 2.r 2.3 2.4 2 4.6 2.9f 3.83 3.1d 1m9.1p 1oz.x yn.3 2.q 2.1 2 3 2.9 2.3 2 2 7 5 2 2 2.2 ",
    "2.1 2 3 2 2 2 2 2.1 2 3.3 2.6 2.3 2.3 2 2.9 2.g 6.2 2.4 2.g g5.a 6.u 2.v r.2 10 34.2 e.17 5.8 8.1 1wf.9 ",
    "1ds7.f1 fher.35r"]),
  ("dash", "19 125 1g 2te sm 1l6.5 1q 14 g av 2dh 3 w.1 5 t cf k 34 14lt.1 12 b 4q 2u9 8v"),
  ("defaultignorablecodepoint di",
    "4t iq jx 283.1 190.1 2e.4 1ks.4 r.4 1e.f 3cl 14f0.f 6o 4h 28.8 119k.3 440.7 h406.35r"),
  ("deprecated dep", "95 10q 1s4 2 1m2.1 1qe.5 je.1 jh07"),
  ("diacritic dia",
    String.join [
    "2m 2 20 7 5 3.1 e0.4e 2.7 6.5 i.1 5 a.1 72.4 5u 1k.18 2 2.1 2.1 2 3o.7 5.1 3r.1 5.1 4.2 1w.q 2k.a 1n.a z.1 ",
    "3j.7 16.9 h.r 1q h 4.3 t 23 h 33 h 33 h 1c.2 1p h 8 3c 33 h 33 h 32.1 h 3h 34 d.5 2 30 e.4 24.1 s 2 2 5.1 ",
    "1v.2 2.1 1r 35 2.1 15.1 5.4 q.6 2 b.1 jm.2 qd.1 v 45.a a 9o.2 85 l.7 3 1d.e 3.a 4.e 3.b 21 g 13.8 1j.1 1n ",
    "c.1 1v.1 1t.5 2b.o 5 7 3.2 1f.1q 1d.z 6.b 12.a ce 2.2 c.2 e.2 e.2 e.1 2k1.2 8u e3.5 2y.3 2o n77 d.1 2 t.1 ",
    "2b.1 f.x 2v.2 2v 7.1 d 12 48 s.h 1m.3 11 2o d 11 46.2 1u.3 1g 2t.4 a.2 3l.1 fn5 le.f 7j 2 1c 1a.1 1w l9 ww.5 ",
    "2.15 2.8 hq.2 5 4m.1 fw.5 13 r.4 b1 3.2 1z.a 1e.3 5d 16 21.1 3d.1 1r 25 a.2 2x.1 4z.1 29.1 h p.6 4.4 2i.2 ",
    "2.1 e.1 2o 4 3g.1 70.1 3j 3b.1 38 7i.1 77.1 5 4d 2c j 2a bq 77 2.1 2a 1u a0.1 o 44t.e 8uy 1xd.4 1o.6 fp.1 ",
    "f7.g 29.1 cn3.3 2.6 2.1 64i.19 3.m f5.2 4.5 9.7 3.6 v.3 2v7.1p 5f.6 ag 1q.3 lb.1 kh.6 32.2 2.2"]),
  ("emoji",
    String.join [
    "z 7 6.9 34 5 68e d 61 n 2j.5 g.1 a8.1 d 4n q.a 5.2 5k 6g.1 b a 1n.3 2.4 a 3 3.1 3 5 3 2.1 3 4 4.1 9.2 6 2 ",
    "6.b c.1 3 2.1 2 j 3.1 j.5 2 2.1 4.1 6 3.1 5.1 c.1 6.1 3 6.1 2 2.1 l.1 6.5 2.3 3 5 3 3.5 2 3 2 2 7 4 7 b.1 g ",
    "3 5 2 5.2 2 c.1 1d.2 a f f ad.1 cw.2 k.1 1g 5 yj d gq 2 2fzf 5n 4h.1 d.1 f 3.9 24.p 2.1 o l 3.8 m.1 4v.x ",
    "3.33 3.1 2.2 3.2a 3.2 2.7a 2.1q c.5 2.n 8.1 3.7 d 3.3 3 5.1 e.1 3 9.1 a 6.2 d.2 9.2 3 2 5 7 4 7.2d 1d.1x 6.7 ",
    "3.3 4.9 4 2.1 4 3.9 6c.b 5 7w.1a 2.9 2.54 35.c 4.a 4.1k 2 5.f 3.b 5.9"]),
  ("emojicomponent ecomp", "z 7 6.9 6ac 5y 17os 1c5z.p e4.4 14h.3 gw31.2n"),
  ("emojimodifier emod", "2qrf.4"),
  ("emojimodifierbase ebase",
    String.join [
    "7j1 64 h.3 2iyg 1p.2 3 3.2 3a.1 3.a m.i 4 5.2 2.2 8 2 p 5m.1 5 m 5.1 4v.2 4.4 2c h.2 a c g0 3 9.7 7 a.9 3.2 ",
    "1l 1q.1 2.1 2 i.2 2.c 6e.2 17.8"]),
  ("emojipresentation epres",
    String.join [
    "6xm.1 5q.3 4 3 ei.1 m.1 1f.b 18 k e 9.1 i.1 6.1 9 6 m 8.1 2 5 3 8 5.1 t 10 2 5.2 2 1q.2 p f nw.1 1g 5 2hf3 ",
    "5n 5b 3.9 24.p 2 p l 3.4 2.2 m.1 4v.w d.8 2.1x 2.l d.16 5.4 d.g 4 4.1y 2 2.56 3.1q e.3 2.n j r.1 e 2f.2c ",
    "1d.1x 7 4.2 3.3 4.3 c.1 8.8 6c.b 5 7w.1a 2.9 2.54 35.c 4.a 4.1k 2 5.f 3.b 5.9"]),
  ("extendedpictographic extpict",
    String.join [
    "4p 5 68e d 61 n 2j.5 g.1 a8.1 d 4n q.a 5.2 5k 6g.1 b a 1n.3 2.4 a 3 3.1 3 5 3 2.1 3 4 4.1 9.2 6 2 6.b c.1 3 ",
    "2.1 2 j 3.1 j.5 2 2.1 4.1 6 3.1 5.1 c.1 6.1 3 6.1 2 2.1 l.1 6.5 2.3 3 5 3 3.5 2 3 2 2 7 4 7 b.1 g 3 5 2 5.2 ",
    "2 c.1 1d.2 a f f ad.1 cw.2 k.1 1g 5 yj d gq 2 2fzf 14.3 2t.b g.1 g f.1 12.9 35.1 d.1 f 3.9 k.1j s.e b l 3.8 ",
    "2.3 a.m 7.57 3.33 3.1 2.2 3.2a 3.2 2.3 6.71 2.1q c.5 2.n 8.1 3.7 d 3.3 3 5.1 e.1 3 9.1 a 6.2 d.2 9.2 3 2 5 7 ",
    "4 7.2d 1d.1x 6.7 3.g 4 2.5 3.c 63.11 d.3 1l.7 b.5 15.7 v.1 d.3 3.d a.12 d.1a 2.9 2.54 2h.7 f.41 75.sd"]),
  ("extender ext",
    String.join [
    "53 ex.1 of ca hj 3u 2i kx 3k 1tw 1l h0 b3 1x 3uy 18.4 2w.1 2m.2 lxz 16f qr n 3u 31 m.1 gos 1ld.1 158 s 5 y0 ",
    "86 39.1 dv.2 y8 n5 fah.1 wt.1 2 f.1 mdl.1 xe np.2"]),
  ("graphemebase grbase",
    String.join [
    "w.2m y.c 2.gh 35.7 3.5 5.6 2 2.j 2.67 8.4l 2.11 3.1d 3.2 1b 2 3 3 a.q 5.5 i.9 c 2.19 m.f 2.2s 9 7.1 3 5.v 3 ",
    "2.t u.2g c f.16 a.6 4.n 5 a 4 8.e 2.o 6 2.a 6.v h.15 1m.1i 2 2.3 9.3 2.2 8.9 3.s 2.1 2.7 3.1 3.l 2.6 2 4.3 4 ",
    "2.1 7.1 3.1 2 e.1 2.2 5.n 6 2.5 5.1 3.l 2.6 2.1 2.1 2.1 5.2 p.3 2 8.9 3.2 2 d 2.8 2.2 2.l 2.6 2.1 2.4 4.3 9 ",
    "2.1 4 g.1 5.b 8 9.1 2.7 3.1 3.l 2.6 2.1 2.4 4 3 7.1 3.1 g.1 2.2 5.h c 2.5 4.2 2.3 4.1 2 2.1 4.1 4.2 4.b 6 ",
    "2.1 4.2 2.2 4 m.k 7.2 2.7 2.2 2.m 2.f 4 4.3 k.2 2.1 3.1 5.9 8.9 2.a 2.2 2.m 2.9 2.4 4.1 3 2.1 o.2 2.1 5.9 ",
    "2.2 f.a 2.2 2.14 3 2.1 6.2 2.2 2.1 5.2 2.9 5.p 3.1 2.h 4.n 2.8 2 3.6 a.1 7.6 8.9 3.2 d.1b 2.1 c.7 9.c 12.1 2 ",
    "2.4 2.n 2 2.9 2.1 a 3.4 2 a.9 3.3 x.n 3.q 2 2 2.d 2.z j 6 3.4 1e.7 2.5 2.c 12.18 5 7 3.1 3.o 3.3 4.f 5.c 2.1 ",
    "3.5 2.e 2.13 2 6 3.ag 2.3 3.6 2 2.3 3.14 2.3 3.w 2.3 3.6 2 2.3 3.e 2.1k 2.3 3.1u 6.s 4.p 7.2d 3.5 3.ik 4.2g ",
    "8.h e.i 4.1 a.h f.c 2.2 g.1f 3 8.7 2.1 c.8 4.9 7.9 7.a 6.9 7.2g 8.4 3.x 2 6.1x b.u 5.3 3.2 5.1 2.5 8 4.15 ",
    "3.4 c.17 5.p 7.a 4.1k 3.1 4.1j 2 a 2.1 9.5 e.9 7.9 7.d 2f.1b b.3 4.7 2.s a.b 3.v 5.1 7.1j 2 3.2 2 e.1b 9.1 ",
    "6.e 4.1p 6.16 3.a c e 8.3 2.5 2.2 3 6.5b 1t.7p 3.5 3.11 3.5 3.7 2 2 2 2.u 3.1g 2.e 2.d 3.5 2.i 3.2 2.8 2.a ",
    "6.n 8.1c h.1 3.q 2.c 4.x 1r.3v 5.ih n.a m.1eb 3.ag 4.1 6.18 2 6 3.1j 8.1 g.m a.6 2.6 2.6 2.6 2.6 2.6 2.6 2.6 ",
    "y.2l z.p 2.2g d.5x r.1l 7.f 2.2d 5.2s 6.16 2.2l 2.2d a.1b 2.mlo 4.1i a.9n l.1a 5 b.v 3.27 3.5 9.64 l.g 2.2 ",
    "2.3 2.o 3.4 5.9 7.1j 9.1v b.b p.c 2.11 9.o c d.t 7.1b 2.1 5.1 3.1 2.c 2.a 5.6 2.o 2.14 7.1 3.1 c.2 2.7 2 3.9 ",
    "3.v 2.1e 2 4.1 3.4 3 2 p.g 3.7 c.5 3.5 3.5 a.6 2.6 2.1n 5.38 2.1 2.3 4.9 7.8mb d.m 5.1c 6it.a5 3.2x 13.6 d.4 ",
    "6 2.n 2.4 2 2.1 2.1 2.i1 x.f h.9 n.y 2.i 2.3 5.4 2.3q 5.4c 3.u 4.5 3.5 3.5 3.2 4.6 2.6 e.1 3.b 2.p 2.i 2.1 ",
    "2.e 3.d z.3e 6.2 5.18 4.2f 2.c 4 1c.18 3o.s 4.1c h.q 5.z a.t 6.11 b.t 2.10 5.d 17.4d 3.9 7.z 5.z 5.13 9.1f ",
    "c.b 2.e 2.6 2.1 2.a 2.e 2.6 2.1 4.1f d.8m a.l b.7 p.5 2.15 2.8 1y.5 3 2.17 2.1 4 3.m 2.1z 9.8 1d.i 2.1 6.w ",
    "4.q 6.q 13.1j 5.j 3.1a g.3 2.2 2.s b.8 8.8 8.1r x.10 7.b a.1h 4.s 3.q 6.p 8.3 d.6 29.20 1k.1e e.1e 8.15 d.9 ",
    "7.11 9.n 9.1 5t.u 2.15 4 3.1 h.5 9.8 14.13 9.l c.8 n.h 5.3 13.r l.m a 2.1h g.6 5.t 2.1 3 d.1c 5.1 3.1 2.3 ",
    "f.o 8.9 a.z 6 a.h 9.y 2.2 c.1f a 2.7 5.1 2.f 2.j c.h 2.r 4.1 5.5 2.1 1s.6 2 2.3 2.e 2.a 7.1a 2.2 e.9 9.1 2.7 ",
    "3.1 3.l 2.6 2.1 2.4 4 2 2.3 3.1 3.1 4 d.6 t.9 2 3 2.11 2 2.1 g 2.1 4 2.2 2.1 14.1j 9.1 4 2.k 2 2.2 v.1b 2.1 ",
    "7 2.1 2 3 3.3 9.9 4n.1a 2.1 7.3 3 3.q 11.1e 9.1 2 3.3 c.9 7.c k.16 2 2.1 9.1 7.9 7.j t.q 4 2.1 5 a.m 56.1a a ",
    "3 2t.2a d.7 3 3.7 2.1 2.n 2.4 2.1 7.3 2.2 a.9 1z.7 3.15 9.3 2.3 s b.13 7.1 5.7 a 7.1 4.19 e 3.8 e.20 8.9 2g ",
    "4 2 2h.x f.9 7.8 2.11 f 2.5 b.s 4.v q 8 3 24.6 2.1 2.11 m a.9 7.5 2.1 2.10 5.1 2 2 8.9 7.17 5.9 6v.i 3.3 a.e ",
    "2.z 9.1 4.m 2f g.1d e.pm 2v.32 2.4 c.5f 219.2q e.tr i.5 q.32y 6.g6 5a2.t d.2 4.9 1c7.fs 8.u 2.9 5.28 2.9 7.t ",
    "8 b.1b 8.e b.9 2.6 2.k 6.i c1.1l 5j.2i 6.o 3.o 19.22 6.1j c.c 1t.3 f.4 a.5p1 16.v 2q.36 6pq.3 2.6 2.1 2.82 g ",
    "u.2 3 f.3 9.az 1s5.2y 6.c 4.8 8.9 3 3 31d.70 4.c3 7.m g.g 2o.37 1p.6t b.12 3.1n 6.2 n.1 8.t 5.1o m.1t 4 3f.j ",
    "d.j d.2e a.o 3s.2c 2.1y 2.1 3 3.1 3.3 2.b 2 2.6 2.1s 2.3 3.7 2.6 2.r 2.3 2.4 2 4.6 2.9f 3.83 3.fl 1k.3 1f.7 ",
    "2.d 2.6 vp.u 7.5 7a.1p 43.18 b.6 3.9 5.1 8x.t j.17 5.9 6 cx.r 5.9 5z.t 3.a 5 5d.u 2.2 2.1 2.6 3.4 a.1 69.6 ",
    "2.3 2.1 2.e 2.5g 3.8 1d.1v 8 5.9 5.1 lu.1v 25.1o 5f.3 2.q 2.1 2 3 2.9 2.3 2 2 7 5 2 2 2.2 2.1 2 3 2 2 2 2 ",
    "2.1 2 3.3 2.6 2.3 2.3 2 2.9 2.g 6.2 2.4 2.g 1h.1 7j.17 5.2r d.e 3.e 2.e 2.10 b.4t 1l.s e.17 5.8 8.1 f.5 ",
    "4b.rc 4.g 4.c 4.61 7.b 5 g.b 5.1j 9.9 7.13 9.t 3.b 5.1 f.8 14.9j 9.d 3.c 4.a 4.1k 2 5.f 3.b 5.9 8.42 2.2u ",
    "sm.wyn x.3dp 3.4gd 3.5rk g.h9 1wj.f1 15v.3t6 6.6jt"]),
  ("graphemeextend grext",
    String.join [
    "lc.33 7o.6 7c.18 2 2.1 2.1 2 21.a 1d.k h 2u.6 3.5 3.1 2.3 10 v.q 2k.a 1n.8 a p.3 2.8 2.2 2.4 18.2 1o.8 17.n ",
    "2.v 1k 2 5.7 5 4.6 b.1 u 1n 2 3.3 9 a b.1 r 3.1 1m 5.1 5.1 3.2 4 v.1 4 c.1 1m 5.4 2.1 5 l.1 n.5 2 1n 2.1 2.3 ",
    "9 8.2 b.1 v 1o 2 d a 15 4 1k 2.2 6.2 2.3 8.1 c.1 u 1n 3.1 2 4.2 2.3 8.1 c.1 t.1 1m.1 2 3.3 9 a b.1 u 21 5 ",
    "3.2 2 9 2a 3.6 d.7 2r 3.8 c.6 22.1 s 2 2 1k.d 2.4 2.1 6.a 2.z a 2v.3 2.5 2.1 3.1 q.1 5.2 h.3 e 3.1 7 g jk.2 ",
    "qb.3 t.2 u.1 v.1 1t.1 2.6 9 3.a a 1a.2 2 3a.1 z 3b.2 5.1 a 7.2 64.1 3 1n 2.6 2 2 3.7 7.9 3 1d.19 3.b l.3 ",
    "1d.9 5.2 13.8 d.1 x.3 3.5 1l 2.1 4 2.4 1l.7 3.1 49.2 2.c 2.6 5 7 4.1 5j.1r el 5g.w 2db.2 3y 2p.v ff.5 2y.1 ",
    "n9x.3 2.9 x.1 29.1 7l 4 5 q.1 6 48.1 r.h e 13.7 q.a 2 19.2 1d 3.3 3.1 3 11 1w.5 3.1 3.1 d 9 1c 1g 2.2 3.1 ",
    "6.1 2 17.1 9 6n 3 5 fn5 ki.f h.f a7.1 gu 6b 46.4 1af.2 2.1 6.3 15.2 5 4m.1 fy.3 1u.4 8u.1 26.5 1z.a 1e.3 3g ",
    "1j.e 16 3.1 b.2 1e.3 3.1 8 1q.2 11.4 2.7 1r d.1 1h.8 2 9.3 3 2o.2 3.3 7 3 4e 4.7 m.1 1m.1 2 2 d a f.6 4.4 1w ",
    "3.5 2 3 2.2 5.2 2 f.1 2e.7 3.2 2 o 2a 3.5 2 3 2.1 2.1 6k 3.3 7.1 2.1 s.1 2e.7 3 2.1 2z 2 3.7 2u 2 3.3 2.4 ",
    "78.8 2.1 6u b.3 5 41.3 3.1 5 x.9 15.5 3.3 9 a.5 3.2 1b.c 2.1 5j 2.2 2 5m.6 2.5 2 2b.l 3.6 2.1 2.1 3f.5 4 2.1 ",
    "2.6 2 21.1 4 2 9o.1 c.1 1h.4 6.2 o 44m 7.e 8uh.b 4.2 1xd.4 1o.6 t5 1s.3 2a c.1 f58.1 3mq.19 3.m f3.4 4.5 9.7 ",
    "3.6 v.3 45.2 1j0.1i 5.1d 9 f n.4 2.e 11t.6 2.g 3.6 2.1 2.4 2t 4h.6 ag 1q.3 e5.3 73.1 6s 3 8.1 6 d7.6 32.6 ",
    "gzbq.2n 3l.6n"]),
  ("hexdigit hex", "1c.9 8.5 r.5 1eay.9 8.5 r.5"),
  ("idsbinaryoperator idsb", "9gw.1 3.9 du"),
  ("idstrinaryoperator idst", "9gy.1"),
  ("idcontinue idc",
    String.join [
    "1c.9 8.p 5 2.p 1c b 2 3 6.m 2.u 2.cp 5.b f.4 8 2 i.38 2.1 3.3 2 7.4 2 2.j 2.2a 2.3u 2.4 3.4l 2.11 3 7.14 ",
    "9.18 2 2.1 2.1 2 9.q 5.3 u.a 6.21 5.2t 2.7 3.9 2.i 3 h.1m 3.2s f.1h 5 3 3.19 j.r 5.a 6.n 2.6 8.22 2.3k 3.9 ",
    "2.i 2.7 3.1 3.l 2.6 2 4.3 3.8 3.1 3.3 9 5.1 2.4 3.b b 2 3.2 2.5 5.1 3.l 2.6 2.1 2.1 2.1 3 2.4 5.1 3.2 4 8.3 ",
    "2 8.f c.2 2.8 2.2 2.l 2.6 2.1 2.4 3.9 2.2 2.2 3 g.3 3.9 a.6 2.2 2.7 3.1 3.l 2.6 2.1 2.4 3.8 3.1 3.2 8.2 5.1 ",
    "2.4 3.9 2 h.1 2.5 4.2 2.3 4.1 2 2.1 4.1 4.2 4.b 5.4 4.2 2.3 3 7 f.9 h.c 2.2 2.m 2.f 3.8 2.2 2.3 8.1 2.2 2.1 ",
    "3.3 3.9 h.3 2.7 2.2 2.m 2.9 2.4 3.8 2.2 2.3 8.1 6.2 2.3 3.9 2.2 d.c 2.2 2.1e 2.2 2.4 6.3 8.4 3.9 b.5 2.2 2.h ",
    "4.n 2.8 2 3.6 4 5.5 2 2.7 7.9 3.1 e.1l 6.e 2.9 14.1 2 2.4 2.n 2 2.m 3.4 2 2.6 2.9 3.3 x o.1 7.9 c 2 2 5.9 ",
    "2.z 5.j 2.h 2.z a 1m.21 7.25 3.11 2 6 3.16 2.98 2.3 3.6 2 2.3 3.14 2.3 3.w 2.3 3.6 2 2.3 3.e 2.1k 2.3 3.1u ",
    "3.2 a.8 f.f h.2d 3.5 4.h7 3.g 2.p 6.22 4.a 8.l a.l c.j d.c 2.2 2.1 d.2b 4 5.1 3.9 y.2 2.a 7.2g 8.16 6.1x b.u ",
    "2.b 5.b b.13 3.4 c.17 5.p 7.a 12.r 5.1q 2.s 3.a 7.9 e 9.d 2.u 3.b l.24 4.9 i.8 d.37 d.1j 9.9 4.1c 3.a 6.16 ",
    "3.2 h.2 2.12 6.et 3.5 3.11 3.5 3.7 2 2 2 2.u 3.1g 2.6 2 4.2 2.6 4.3 3.5 5.c 6.2 2.6 g.1 1e.1 k t e h.c 1g.c ",
    "5 4.b i 5 3.9 2 3.5 7 2 2 2.f 3.3 6.4 5 i.14 22g.6c 7.8 d.11 2 6 3.1j 8 g.n a.6 2.6 2.6 2.6 2.6 2.6 2.6 2.6 ",
    "2.v ee.2 q.e 2.4 3.4 5.2d 3.6 2.2m 6.16 2.2l i.v 1d.f e9.533 1t.h3g 1w.19 3.7g 4.r l.1b 5.9 2.36 12.8 3.2u ",
    "3.29 l.1i 5 k.1f d.1x b.9 7.n 4 2.1c 3.z d.s 4.1s f.a 7.u 2.1i a.d 3.9 7.m 4.20 p.2 3.f 3.4 b.5 3.5 3.5 a.6 ",
    "2.6 2.16 2.d 7.3e 2.1 3.9 7.8mb d.m 5.1c 6it.a5 3.2x 13.6 d.4 6.b 2.c 2.4 2 2.1 2.1 2.2z y.a2 j.1r 3.1h 15.b ",
    "5.f h.f 4.1 p.2 x.4 2.3q k.9 8.p 5 2.p b.2h 4.5 3.5 3.5 3.2 10.b 2.p 2.i 2.1 2.e 3.d z.3e 1y.1g 3t 3n.s 4.1c ",
    "g w.v e.t 6.16 6.t 3.z 5.7 2.4 17.4d 3.9 7.z 5.z 5.13 9.1f d.a 2.e 2.6 2.1 2.a 2.e 2.6 2.1 4.1f d.8m a.l b.7 ",
    "p.5 2.15 2.8 1y.5 3 2.17 2.1 4 3.m b.m a.u 1u.i 2.1 b.l b.p 7.p 13.1j 7.1 1t.3 2.1 6.7 2.2 2.s 3.2 5 x.s 4.s ",
    "10.7 2.t q.1h b.l b.i e.h 33.20 1k.1e e.1e e.13 9.9 7.11 4.4 2.m 6z.15 2.1 4.1 h.5 1f.y b 9.w w.l 17.k s.m ",
    "a.1y w.f a.1n 8 e.o 8.9 7.1g 2.9 5.3 9.z 3 a.1w 5.3 2.c 2 10.h 2.10 7.3 1r.6 2 2.3 2.e 2.9 8.1m 6.9 7.3 2.7 ",
    "3.1 3.l 2.6 2.1 2.4 2.9 3.1 3.2 3 7 6.6 3.6 4.4 c.9 2 3 2.11 2.9 2 3 2.3 2.7 e.1 u.22 6.9 5.3 v.1x 2 9.9 ",
    "4n.1h 3.8 o.5 z.1s 4 c.9 13.1k 8.9 7.j t.q 3.e 5.9 7.6 56.1m 2u.21 m.7 3 3.7 2.1 2.t 2.1 3.8 d.9 1z.7 3.19 ",
    "3.7 2.1 s.1q 9 9.21 4 j.20 2w.7 2h.w g.9 7.8 2.18 2.8 g.9 p.t 3.l 2.d 22.6 2.1 2.17 4 2.1 2.8 9.9 7.5 2.1 ",
    "2.10 2.1 2.5 8.9 7.17 5.9 6v.m a.g 2.14 4.4 e.a 2e 28.pl 2v.32 i.5f 219.2o g.tr h.l b.32y 6.g6 5a2.1l 1c7.fs ",
    "8.u 2.9 7.26 2.9 7.t 3.4 c.1i a.3 d.9 a.k 6.i c1.18 4.9 5j.1r x.o 3.o 19.22 5.1k 8.g 1t.1 2.1 c.6 a.5p1 16.v ",
    "2q.36 6pq.3 2.6 2.1 2.82 g u.2 3 f.3 9.az 1s5.2y 6.c 4.8 8.9 4.1 382.9 ef.19 3.m f3.4 4.5 9.7 3.6 v.3 45.2 ",
    "cc.2c 2.1y 2.1 3 3.1 3.3 2.b 2 2.6 2.1s 2.3 3.7 2.6 2.r 2.3 2.4 2 4.6 2.9f 3.o 2.o 2.u 2.o 2.u 2.o 2.u 2.o ",
    "2.u 2.o 2.7 3.1d e9.1i 5.1d 9 f n.4 2.e up.u 7.5 5y.6 2.g 3.6 2.1 2.4 6.1p y 35.18 4.d 3.9 5 8y.u i.1l d3.15 ",
    "5z.16 5i.u 2.l 9.1 69.6 2.3 2.1 2.e 2.5g c.6 16.23 5.9 x3.3 2.q 2.1 2 3 2.9 2.3 2 2 7 5 2 2 2.2 2.1 2 3 2 2 ",
    "2 2 2.1 2 3.3 2.6 2.3 2.3 2 2.9 2.g 6.2 2.4 2.g 2lx.9 sn.wyn x.3dp 3.4gd 3.5rk g.h9 1wj.f1 15v.3t6 6.6jt ",
    "f62v.6n"]),
  ("idstart ids",
    String.join [
    "1t.p 7.p 1c b 5 6.m 2.u 2.cp 5.b f.4 8 2 3m.4 2.1 3.3 2 7 2.2 2 2.j 2.2a 2.3u 9.4l 2.11 3 7.14 20.q 5.3 ",
    "1a.16 10.1 2.2q 2 g.1 8.1 b.2 3 h 2.t u.2g c p.w a.1 5 6.l 5 a 4 o.o 8.a 6.n 2.6 h.15 1n.1h 4 j 8.9 g.f 5.7 ",
    "3.1 3.l 2.6 2 4.3 4 h e.1 2.2 f.1 b 9.5 5.1 3.l 2.6 2.1 2.1 2.1 w.3 2 k.2 h.8 2.2 2.l 2.6 2.1 2.4 4 j g.1 o ",
    "c.7 3.1 3.l 2.6 2.1 2.4 4 v.1 2.2 g i 2.5 4.2 2.3 4.1 2 2.1 4.1 4.2 4.b n 1h.7 2.2 2.m 2.f 4 r.2 2.1 3.1 v ",
    "5.7 2.2 2.m 2.9 2.4 4 v.2 2.1 g.1 i.8 2.2 2.14 3 h 6.2 9.2 p.5 6.h 4.n 2.8 2 3.6 1n.1b 2.1 d.6 1n.1 2 2.4 ",
    "2.n 2 2.9 2.1 a 3.4 2 m.3 x 1s.7 2.z s.4 38.16 l h.5 5.3 4 4.1 8.2 5.c d i.11 2 6 3.16 2.98 2.3 3.6 2 2.3 ",
    "3.14 2.3 3.w 2.3 3.6 2 2.3 3.e 2.1k 2.3 3.1u 12.f h.2d 3.5 4.h7 3.g 2.p 6.22 4.a 8.h e.i f.h f.c 2.2 g.1f 10 ",
    "5 1w.2g 8.14 2 6.1x b.u 1e.t 3.4 c.17 5.p 1j.m a.1g 2b 2m.1a i.7 1j.t e.1 b.17 r.z 16.2 b.z 3.a 6.16 3.2 ",
    "16.3 2.5 2.1 4 6.5b 1t.7p 3.5 3.11 3.5 3.7 2 2 2 2.u 3.1g 2.6 2 4.2 2.6 4.3 3.5 5.c 6.2 2.6 39 e h.c 2u 5 ",
    "3.9 2 3.5 7 2 2 2.f 3.3 6.4 5 i.14 22g.6c 7.3 4.1 d.11 2 6 3.1j 8 h.m a.6 2.6 2.6 2.6 2.6 2.6 2.6 2.6 fb.2 ",
    "q.8 8.4 3.4 5.2d 5.4 2.2h 2.3 6.16 2.2l i.v 1d.f e9.533 1t.h3g 1w.19 3.7g 4.f b.1 l.1a h.u 3.27 14.8 3.2u ",
    "3.29 l.g 2.2 2.3 2.m u.1f f.1d 1r.5 4 2.1 c.r b.m q.s 8.1a t h.4 2.9 b.4 2.14 o.2 2.7 l.m 4 4.1d 2 4.1 3.4 3 ",
    "2 p.2 3.a 8.2 d.5 3.5 3.5 a.6 2.6 2.16 2.d 7.36 u.8mb d.m 5.1c 6it.a5 3.2x 13.6 d.4 6 2.9 2.c 2.4 2 2.1 2.1 ",
    "2.2z y.a2 j.1r 3.1h 15.b 39.4 2.3q 11.p 7.p c.2g 4.5 3.5 3.5 3.2 10.b 2.p 2.i 2.1 2.e 3.d z.3e 1y.1g 7g.s ",
    "4.1c 1c.v e.t 6.11 b.t 3.z 5.7 2.4 17.4d j.z 5.z 5.13 9.1f d.a 2.e 2.6 2.1 2.a 2.e 2.6 2.1 4.1f d.8m a.l b.7 ",
    "p.5 2.15 2.8 1y.5 3 2.17 2.1 4 3.m b.m a.u 1u.i 2.1 b.l b.p 7.p 13.1j 7.1 1t g.3 2.2 2.s 17.s 4.s 10.7 2.r ",
    "s.1h b.l b.i e.h 33.20 1k.1e e.1e e.z 13.r a.m 6z.15 7.1 h.5 1l.s b 9.l 17.h 1b.k s.m d.1g 1m.1 3 e.18 x.o ",
    "r.z u 3 9.y 4 d.1b f.3 m 2 10.h 2.o k.1 1s.6 2 2.3 2.e 2.9 8.1a 13.7 3.1 3.l 2.6 2.1 2.4 4 j d.4 v.9 2 3 ",
    "2.11 2 q 2 19.1g j.3 l.2 v.1b l.1 2 55.1a 16.3 11.1b l 1o.16 e 20.q 12.6 56.17 39.1r w.7 3 3.7 2.1 2.n g 2 ",
    "2n.7 3.12 h 2 t b.13 8 m c.19 k j.20 5k.w w.8 2.10 i 1e.t 35.6 2.1 2.11 m q.5 2.1 2.v f o.17 79.i g 2.c 2.x ",
    "3h 28.pl 2v.32 i.5f 219.2o g.tr i.5 q.32y 6.g6 5a2.t 1cz.fs 8.u i.26 i.t j.1b h.3 w.k 6.i c1.18 5w.1r x.o ",
    "3.o 19.22 6 1v.c 1t.1 2 f.4 a.5p1 16.v 2q.36 6pq.3 2.6 2.1 2.82 g u.2 3 f.3 9.az 1s5.2y 6.c 4.8 8.9 4mf.2c ",
    "2.1y 2.1 3 3.1 3.3 2.b 2 2.6 2.1s 2.3 3.7 2.6 2.r 2.3 2.4 2 4.6 2.9f 3.o 2.o 2.u 2.o 2.u 2.o 2.u 2.o 2.u 2.o ",
    "2.7 1f9.u 7.5 7a.1p 43.18 b.6 h 8y.t j.17 dh.r 6d.t 3 5s.u 2.2 2.1 2.6 3.4 a.1 69.6 2.3 2.1 2.e 2.5g 1o.1v 8 ",
    "xh.3 2.q 2.1 2 3 2.9 2.3 2 2 7 5 2 2 2.2 2.1 2 3 2 2 2 2 2.1 2 3.3 2.6 2.3 2.3 2 2.9 2.g 6.2 2.4 2.g 3et.wyn ",
    "x.3dp 3.4gd 3.5rk g.h9 1wj.f1 15v.3t6 6.6jt"]),
  ("ideographic ideo",
    String.join [
    "9hi.1 q.8 f.2 qu.533 1t.g73 hkx.a5 3.2x n4b e.4 a.5p1 16.v 2q.36 70e.az f7p.wyn x.3dp 3.4gd 3.5rk g.h9 ",
    "1wj.f1 15v.3t6 6.6jt"]),
  ("joincontrol joinc", "6bw.1"),
  ("logicalorderexception loe", "2tc.4 3g.4 25t.2 3 smz.1 3 2.1"),
  ("lowercase lower",
    String.join [
    "2p.p 1c b 5 11.n 2.7 2 2 2 2 2 2 2 2 2 2 2 2 2 2 2 2 2 2 2 2 2 2 2 2 2 2 2 2.1 2 2 2 2 2 2 2 2.1 2 2 2 2 2 2 ",
    "2 2 2 2 2 2 2 2 2 2 2 2 2 2 2 2 2 3 2 2.2 3 2 3 4.1 5 3 4.2 3 3 2 2 3 2.1 2 3 4 2 3.1 3.2 7 3 3 2 2 2 2 2 2 ",
    "2 2.1 2 2 2 2 2 2 2 2 2.1 3 2 4 2 2 2 2 2 2 2 2 2 2 2 2 2 2 2 2 2 2 2 2 2 2 2 2 2 2 2 2 2.6 3 3.1 2 5 2 2 2 ",
    "2.1w 3.y 8.1 v.4 2p 18 2 4 3.3 j s.y 2.1 4.2 2 2 2 2 2 2 2 2 2 2 2 2.4 2 3 3.1 1g.1b 2 2 2 2 2 2 2 2 2 2 2 2 ",
    "2 2 2 2 2 a 2 2 2 2 2 2 2 2 2 2 2 2 2 2 2 2 2 2 2 2 2 2 2 2 2 2 3 2 2 2 2 2 2.1 2 2 2 2 2 2 2 2 2 2 2 2 2 2 ",
    "2 2 2 2 2 2 2 2 2 2 2 2 2 2 2 2 2 2 2 2 2 2 2 2 2 2 2 2 2 2 2 2 2 2 1d.14 288.16 2.3 l5.5 1oj.8 2 3a.5b 1u 2 ",
    "2 2 2 2 2 2 2 2 2 2 2 2 2 2 2 2 2 2 2 2 2 2 2 2 2 2 2 2 2 2 2 2 2 2 2 2 2 2 2 2 2 2 2 2 2 2 2 2 2 2 2 2 2 2 ",
    "2 2 2 2 2 2 2 2 2 2 2 2 2 2 2 2 2 2 2.8 2 2 2 2 2 2 2 2 2 2 2 2 2 2 2 2 2 2 2 2 2 2 2 2 2 2 2 2 2 2 2 2 2 2 ",
    "2 2 2 2 2 2 2 2 2 2 2 2 2 2 2.8 9.5 b.7 9.7 9.5 b.7 9.7 9.d 3.7 9.7 9.7 9.4 2.1 7 4.2 2.1 9.3 3.1 9.7 b.2 ",
    "2.1 3e e h.c 32 4.1 4 s 5 5 3.1 9.3 5 y.f 5 ng.p 1fr.1b 2 4.1 2 2 2 5 2.1 2.7 4 2 2 2 2 2 2 2 2 2 2 2 2 2 2 ",
    "2 2 2 2 2 2 2 2 2 2 2 2 2 2 2 2 2 2 2 2 2 2 2 2 2 2 2 2 2 2 2 2 2 2 2.1 8 2 5 d.11 2 6 nx0 2 2 2 2 2 2 2 2 2 ",
    "2 2 2 2 2 2 2 2 2 2 2 2 2 k 2 2 2 2 2 2 2 2 2 2 2 2 2.2 3q 2 2 2 2 2 2.2 2 2 2 2 2 2 2 2 2 2 2 2 2 2 2 2 2 2 ",
    "2 2 2 2 2 2 2 2 2 2 2 2 2.9 2 2 3 2 2 2 2 5 2 3 2.2 2 2 2 2 2 2 2 2 2 2 6 6 2 2 2 2 2 2 2 5 2 3 2 2 2 2 2 2 ",
    "2 m.3 2 2.2 mu.16 2.d 7.27 fnl.6 d.4 tm.p y6.13 3t.z 4c.a 2.e 2.6 2.1 ck 3.2 2.15 2.8 zq.1e 3i.l 27v.v gw1.v ",
    "1o.o k07.p r.6 2.h r.p r.3 2 2.6 2.a r.p r.p r.p r.p r.p r.p r.p r.p r.r t.o 2.5 r.o 2.5 r.o 2.5 r.o 2.5 r.o ",
    "2.5 2 1f9.9 2.j 7.5 7a.1p 1px.x"]),
  ("math",
    String.join [
    "17 h.2 w u 2 1a 5 12 w k9.2 3 r.1 3.2 eo.2 55a s.2 c 4 e f.3 m.4 c.4 1u.c 5 4.1 5.4 j 5 3.9 2 3.5 7 4.1 3.1 ",
    "2.2 2.5 4.d 2 1x.n 2.5 2.1 5.1 5.v 2 7.1 f.7f 9.3 l.1 2j v.q 2 p c.6 ce.1 d.9 5.5 5.1 3.1 4.4 f 2 3.5 c.7 ",
    "6.1 1m 2 u.3 a.2 9d.1r 75.e7 1d.k 3.5 1525 mw.5 2 4j h.2 u 2 u 2 3o 7.3 2oy.1 1275 100.2c 2.1y 2.1 3 3.1 3.3 ",
    "2.b 2 2.6 2.1s 2.3 3.7 2.6 2.r 2.3 2.4 2 4.6 2.9f 3.83 3.1d 4ch.3 2.q 2.1 2 3 2.9 2.3 2 2 7 5 2 2 2.2 2.1 2 ",
    "3 2 2 2 2 2.1 2 3.3 2.6 2.3 2.3 2 2.9 2.g 6.2 2.4 2.g 1h.1 1y7.8"]),
  ("noncharactercodepoint nchar",
    String.join [
    "1e4w.v en.1 1ekf.1 1ekf.1 1ekf.1 1ekf.1 1ekf.1 1ekf.1 1ekf.1 1ekf.1 1ekf.1 1ekf.1 1ekf.1 1ekf.1 1ekf.1 ",
    "1ekf.1 1ekf.1 1ekf.1"]),
  ("patternsyntax patsyn",
    "x.e b.6 r.3 2 r.3 z.6 2 2.1 2 2.1 5 5 4 o w 655.n 9.e 3.i 2.9 8i.jz 4h.hh v.vf e9.3j aq.2 5.o g 14i6.1 7a.1"),
  ("patternwhitespace patws", "9.4 j 2t 689.1 p.1"),
  ("quotationmark qmark", "y 5 3o g 671.7 q.1 2rs cq.3 e.2 14pu.3 5a 5 2j.1"),
  ("radical", "96o.p 2.2g d.5x"),
  ("regionalindicator ri", "2qcm.p"),
  ("sentenceterminal sterm",
    String.join [
    "x d h 11m 44.2 51 18.2 6v 1q 2 4.1 86.1 1d1.1 lz 5.1 li 5j.1 4e.1 1a 6 8r.1 9v.3 4j.1 b.1 3.1 u.2 58.1 1u.1 ",
    "px o.1 a.2 2i8.2 8j e n.1 by n3x 7j.1 6c 4 an.1 2f.1 2o 49.1 44.2 41.1 6y g87 3.1 1o 4.1 4q d h 1u 25x.1 ",
    "zi.4 19.3 5a.1 3a.3 3k.2 3m.1 7 h.1 2h.1 2.1 31 8b.1 3a.1 ae.1 6.e 2y.1 6y.2 ee 2 70.1 2g.1 bp.1 j9.1 23.1 ",
    "eui.1 3q 1u.1 c fe.1 89 fev 5wp"]),
  ("softdotted sd",
    String.join [
    "2x.1 5h 7u v 1h l 8x 2r 2 4y2 1g e 4 3p 4e bq 5z.1 27n 2bom.1 1f.1 1f.1 1f.1 1f.1 1f.1 1f.1 1f.1 1f.1 1f.1 ",
    "1f.1 1f.1 1f.1 1on 8i.1 r"]),
  ("terminalpunctuation term",
    String.join [
    "x b 2 c.1 4 n3 9 ea 1m 21 f 2.2 51 18.a 2 6k.1 1j.5 2.7 w 7a.1 z9.1 4t 5.5 8o.1 ly.7 li 3h.2 20.1 4e.2 4 ",
    "14.3 3.1 8r.1 9v.3 4j.1 b.1 2.2 u.2 58.4 1r.1 px o.1 a.2 2i8.2 8j e 5 b 2.1 4.1 bx.1 n3w.1 7i.2 6c.4 an.1 ",
    "2f.1 2o 48.2 44.2 3k h.1 6y g87 3.1 1m.2 2.3 4q b 2 c.1 4 1u 3 u3 1d w7 5k 8n.1 49.5 1x.5 2i.3 qh.4 19.3 ",
    "5a.6 35.3 3k.2 3m.1 7 h.1 2h.4 31 8b.1 3a.2 d.1 9z.3 4.e 2y.1 6y.2 ee 2 70.1 2g.1 5.1 bj.2 1a hy.1 23.1 ",
    "10s.4 dtm.1 3q 1u.2 b fe.1 88.1 fev 5wo.3"]),
  ("unifiedideograph uideo", "a9s.533 1t.g73 hsf.1 2 2.1 b 2 2.1 3.2 1fpz.wyn x.3dp 3.4gd 3.5rk g.h9 3hf.3t6 6.6jt"),
  ("uppercase upper",
    String.join [
    "1t.p 2u.m 2.6 y 2 2 2 2 2 2 2 2 2 2 2 2 2 2 2 2 2 2 2 2 2 2 2 2 2 2 2 3 2 2 2 2 2 2 2 3 2 2 2 2 2 2 2 2 2 2 ",
    "2 2 2 2 2 2 2 2 2 2 2 2 2.1 2 2 4.1 2 2.1 2.2 3.3 2.1 2.2 4.1 2.1 2 2 2.1 2 3 2.1 2.2 2 2.1 4 8 3 3 3 2 2 2 ",
    "2 2 2 2 3 2 2 2 2 2 2 2 2 3 3 2.2 2 2 2 2 2 2 2 2 2 2 2 2 2 2 2 2 2 2 2 2 2 2 2 2 2 2 2 2 2 8.1 2.1 3 2.3 2 ",
    "2 2 2 82 2 4 9 7 2.2 2 2.1 2.g 2.8 10 3.2 4 2 2 2 2 2 2 2 2 2 2 2 6 3 2.1 3.1e 1d 2 2 2 2 2 2 2 2 2 2 2 2 2 ",
    "2 2 2 a 2 2 2 2 2 2 2 2 2 2 2 2 2 2 2 2 2 2 2 2 2 2 2 2 2 2 2.1 2 2 2 2 2 2 3 2 2 2 2 2 2 2 2 2 2 2 2 2 2 2 ",
    "2 2 2 2 2 2 2 2 2 2 2 2 2 2 2 2 2 2 2 2 2 2 2 2 2 2 2 2 2 2 2 2 3.11 28a.11 2 6 k3.2d 1p0 7.16 3.2 8x 2 2 2 ",
    "2 2 2 2 2 2 2 2 2 2 2 2 2 2 2 2 2 2 2 2 2 2 2 2 2 2 2 2 2 2 2 2 2 2 2 2 2 2 2 2 2 2 2 2 2 2 2 2 2 2 2 2 2 2 ",
    "2 2 2 2 2 2 2 2 2 2 2 2 2 2 2 2 2 a 2 2 2 2 2 2 2 2 2 2 2 2 2 2 2 2 2 2 2 2 2 2 2 2 2 2 2 2 2 2 2 2 2 2 2 2 ",
    "2 2 2 2 2 2 2 2 2 2 2 2 a.7 9.5 b.7 9.7 9.5 c 2 2 2 9.7 21.3 d.3 d.3 d.4 c.3 7b 5 4.2 3.2 3 4.4 7 2 2 2.3 ",
    "3.3 b.1 6 r.f k mr.p 1f5.1b 1d 2.2 3 2 2 2.3 2 3 9.2 2 2 2 2 2 2 2 2 2 2 2 2 2 2 2 2 2 2 2 2 2 2 2 2 2 2 2 2 ",
    "2 2 2 2 2 2 2 2 2 2 2 2 2 2 2 2 2 2 2 2 2 9 2 5 nym 2 2 2 2 2 2 2 2 2 2 2 2 2 2 2 2 2 2 2 2 2 2 k 2 2 2 2 2 ",
    "2 2 2 2 2 2 2 2 3s 2 2 2 2 2 2 4 2 2 2 2 2 2 2 2 2 2 2 2 2 2 2 2 2 2 2 2 2 2 2 2 2 2 2 2 2 2 b 2 2.1 2 2 2 2 ",
    "5 2 3 2 4 2 2 2 2 2 2 2 2 2 2.4 2.4 2 2 2 2 2 2 2 2.3 2 2.1 2 2 2 2 2 2 2 2 p h7w.p xy.13 3t.z 4d.a 2.e 2.6 ",
    "2.1 1d7.1e 4e.l 27v.v gw1.v 1t.o k08.p r.p r.p r 2.1 3 3.1 3.3 2.7 r.p r.1 2.3 3.7 2.6 s.1 2.3 2.4 2 4.6 s.p ",
    "r.p r.p r.p r.p r.p v.o y.o y.o y.o y.o y 3ee.x 1lb.p 7.p 7.p"]),
  ("variationselector vs", "4qz.2 2 19f5.f i9yp.6n"),
  ("whitespace space wspace", "9.4 j 2t r 4bk 1vk.a u.1 6 1c 335"),
  ("xidcontinue xidc",
    String.join [
    "1c.9 8.p 5 2.p 1c b 2 3 6.m 2.u 2.cp 5.b f.4 8 2 i.38 2.1 4.2 2 7.4 2 2.j 2.2a 2.3u 2.4 3.4l 2.11 3 7.14 ",
    "9.18 2 2.1 2.1 2 9.q 5.3 u.a 6.21 5.2t 2.7 3.9 2.i 3 h.1m 3.2s f.1h 5 3 3.19 j.r 5.a 6.n 2.6 8.22 2.3k 3.9 ",
    "2.i 2.7 3.1 3.l 2.6 2 4.3 3.8 3.1 3.3 9 5.1 2.4 3.b b 2 3.2 2.5 5.1 3.l 2.6 2.1 2.1 2.1 3 2.4 5.1 3.2 4 8.3 ",
    "2 8.f c.2 2.8 2.2 2.l 2.6 2.1 2.4 3.9 2.2 2.2 3 g.3 3.9 a.6 2.2 2.7 3.1 3.l 2.6 2.1 2.4 3.8 3.1 3.2 8.2 5.1 ",
    "2.4 3.9 2 h.1 2.5 4.2 2.3 4.1 2 2.1 4.1 4.2 4.b 5.4 4.2 2.3 3 7 f.9 h.c 2.2 2.m 2.f 3.8 2.2 2.3 8.1 2.2 2.1 ",
    "3.3 3.9 h.3 2.7 2.2 2.m 2.9 2.4 3.8 2.2 2.3 8.1 6.2 2.3 3.9 2.2 d.c 2.2 2.1e 2.2 2.4 6.3 8.4 3.9 b.5 2.2 2.h ",
    "4.n 2.8 2 3.6 4 5.5 2 2.7 7.9 3.1 e.1l 6.e 2.9 14.1 2 2.4 2.n 2 2.m 3.4 2 2.6 2.9 3.3 x o.1 7.9 c 2 2 5.9 ",
    "2.z 5.j 2.h 2.z a 1m.21 7.25 3.11 2 6 3.16 2.98 2.3 3.6 2 2.3 3.14 2.3 3.w 2.3 3.6 2 2.3 3.e 2.1k 2.3 3.1u ",
    "3.2 a.8 f.f h.2d 3.5 4.h7 3.g 2.p 6.22 4.a 8.l a.l c.j d.c 2.2 2.1 d.2b 4 5.1 3.9 y.2 2.a 7.2g 8.16 6.1x b.u ",
    "2.b 5.b b.13 3.4 c.17 5.p 7.a 12.r 5.1q 2.s 3.a 7.9 e 9.d 2.u 3.b l.24 4.9 i.8 d.37 d.1j 9.9 4.1c 3.a 6.16 ",
    "3.2 h.2 2.12 6.et 3.5 3.11 3.5 3.7 2 2 2 2.u 3.1g 2.6 2 4.2 2.6 4.3 3.5 5.c 6.2 2.6 g.1 1e.1 k t e h.c 1g.c ",
    "5 4.b i 5 3.9 2 3.5 7 2 2 2.f 3.3 6.4 5 i.14 22g.6c 7.8 d.11 2 6 3.1j 8 g.n a.6 2.6 2.6 2.6 2.6 2.6 2.6 2.6 ",
    "2.v ee.2 q.e 2.4 3.4 5.2d 3.1 3.2 2.2m 6.16 2.2l i.v 1d.f e9.533 1t.h3g 1w.19 3.7g 4.r l.1b 5.9 2.36 12.8 ",
    "3.2u 3.29 l.1i 5 k.1f d.1x b.9 7.n 4 2.1c 3.z d.s 4.1s f.a 7.u 2.1i a.d 3.9 7.m 4.20 p.2 3.f 3.4 b.5 3.5 3.5 ",
    "a.6 2.6 2.16 2.d 7.3e 2.1 3.9 7.8mb d.m 5.1c 6it.a5 3.2x 13.6 d.4 6.b 2.c 2.4 2 2.1 2.1 2.2z y.3u 7.61 j.1r ",
    "3.1h 15.9 7.f h.f 4.1 p.2 y 2 4 2 2 2 2.3h k.9 8.p 5 2.p b.2h 4.5 3.5 3.5 3.2 10.b 2.p 2.i 2.1 2.e 3.d z.3e ",
    "1y.1g 3t 3n.s 4.1c g w.v e.t 6.16 6.t 3.z 5.7 2.4 17.4d 3.9 7.z 5.z 5.13 9.1f d.a 2.e 2.6 2.1 2.a 2.e 2.6 ",
    "2.1 4.1f d.8m a.l b.7 p.5 2.15 2.8 1y.5 3 2.17 2.1 4 3.m b.m a.u 1u.i 2.1 b.l b.p 7.p 13.1j 7.1 1t.3 2.1 6.7 ",
    "2.2 2.s 3.2 5 x.s 4.s 10.7 2.t q.1h b.l b.i e.h 33.20 1k.1e e.1e e.13 9.9 7.11 4.4 2.m 6z.15 2.1 4.1 h.5 ",
    "1f.y b 9.w w.l 17.k s.m a.1y w.f a.1n 8 e.o 8.9 7.1g 2.9 5.3 9.z 3 a.1w 5.3 2.c 2 10.h 2.10 7.3 1r.6 2 2.3 ",
    "2.e 2.9 8.1m 6.9 7.3 2.7 3.1 3.l 2.6 2.1 2.4 2.9 3.1 3.2 3 7 6.6 3.6 4.4 c.9 2 3 2.11 2.9 2 3 2.3 2.7 e.1 ",
    "u.22 6.9 5.3 v.1x 2 9.9 4n.1h 3.8 o.5 z.1s 4 c.9 13.1k 8.9 7.j t.q 3.e 5.9 7.6 56.1m 2u.21 m.7 3 3.7 2.1 2.t ",
    "2.1 3.8 d.9 1z.7 3.19 3.7 2.1 s.1q 9 9.21 4 j.20 2w.7 2h.w g.9 7.8 2.18 2.8 g.9 p.t 3.l 2.d 22.6 2.1 2.17 4 ",
    "2.1 2.8 9.9 7.5 2.1 2.10 2.1 2.5 8.9 7.17 5.9 6v.m a.g 2.14 4.4 e.a 2e 28.pl 2v.32 i.5f 219.2o g.tr h.l ",
    "b.32y 6.g6 5a2.1l 1c7.fs 8.u 2.9 7.26 2.9 7.t 3.4 c.1i a.3 d.9 a.k 6.i c1.18 4.9 5j.1r x.o 3.o 19.22 5.1k ",
    "8.g 1t.1 2.1 c.6 a.5p1 16.v 2q.36 6pq.3 2.6 2.1 2.82 g u.2 3 f.3 9.az 1s5.2y 6.c 4.8 8.9 4.1 382.9 ef.19 3.m ",
    "f3.4 4.5 9.7 3.6 v.3 45.2 cc.2c 2.1y 2.1 3 3.1 3.3 2.b 2 2.6 2.1s 2.3 3.7 2.6 2.r 2.3 2.4 2 4.6 2.9f 3.o 2.o ",
    "2.u 2.o 2.u 2.o 2.u 2.o 2.u 2.o 2.7 3.1d e9.1i 5.1d 9 f n.4 2.e up.u 7.5 5y.6 2.g 3.6 2.1 2.4 6.1p y 35.18 ",
    "4.d 3.9 5 8y.u i.1l d3.15 5z.16 5i.u 2.l 9.1 69.6 2.3 2.1 2.e 2.5g c.6 16.23 5.9 x3.3 2.q 2.1 2 3 2.9 2.3 2 ",
    "2 7 5 2 2 2.2 2.1 2 3 2 2 2 2 2.1 2 3.3 2.6 2.3 2.3 2 2.9 2.g 6.2 2.4 2.g 2lx.9 sn.wyn x.3dp 3.4gd 3.5rk ",
    "g.h9 1wj.f1 15v.3t6 6.6jt f62v.6n"]),
  ("xidstart xids",
    String.join [
    "1t.p 7.p 1c b 5 6.m 2.u 2.cp 5.b f.4 8 2 3m.4 2.1 4.2 2 7 2.2 2 2.j 2.2a 2.3u 9.4l 2.11 3 7.14 20.q 5.3 ",
    "1a.16 10.1 2.2q 2 g.1 8.1 b.2 3 h 2.t u.2g c p.w a.1 5 6.l 5 a 4 o.o 8.a 6.n 2.6 h.15 1n.1h 4 j 8.9 g.f 5.7 ",
    "3.1 3.l 2.6 2 4.3 4 h e.1 2.2 f.1 b 9.5 5.1 3.l 2.6 2.1 2.1 2.1 w.3 2 k.2 h.8 2.2 2.l 2.6 2.1 2.4 4 j g.1 o ",
    "c.7 3.1 3.l 2.6 2.1 2.4 4 v.1 2.2 g i 2.5 4.2 2.3 4.1 2 2.1 4.1 4.2 4.b n 1h.7 2.2 2.m 2.f 4 r.2 2.1 3.1 v ",
    "5.7 2.2 2.m 2.9 2.4 4 v.2 2.1 g.1 i.8 2.2 2.14 3 h 6.2 9.2 p.5 6.h 4.n 2.8 2 3.6 1n.1b 2 e.6 1n.1 2 2.4 2.n ",
    "2 2.9 2 b 3.4 2 m.3 x 1s.7 2.z s.4 38.16 l h.5 5.3 4 4.1 8.2 5.c d i.11 2 6 3.16 2.98 2.3 3.6 2 2.3 3.14 2.3 ",
    "3.w 2.3 3.6 2 2.3 3.e 2.1k 2.3 3.1u 12.f h.2d 3.5 4.h7 3.g 2.p 6.22 4.a 8.h e.i f.h f.c 2.2 g.1f 10 5 1w.2g ",
    "8.14 2 6.1x b.u 1e.t 3.4 c.17 5.p 1j.m a.1g 2b 2m.1a i.7 1j.t e.1 b.17 r.z 16.2 b.z 3.a 6.16 3.2 16.3 2.5 ",
    "2.1 4 6.5b 1t.7p 3.5 3.11 3.5 3.7 2 2 2 2.u 3.1g 2.6 2 4.2 2.6 4.3 3.5 5.c 6.2 2.6 39 e h.c 2u 5 3.9 2 3.5 7 ",
    "2 2 2.f 3.3 6.4 5 i.14 22g.6c 7.3 4.1 d.11 2 6 3.1j 8 h.m a.6 2.6 2.6 2.6 2.6 2.6 2.6 2.6 fb.2 q.8 8.4 3.4 ",
    "5.2d 7.2 2.2h 2.3 6.16 2.2l i.v 1d.f e9.533 1t.h3g 1w.19 3.7g 4.f b.1 l.1a h.u 3.27 14.8 3.2u 3.29 l.g 2.2 ",
    "2.3 2.m u.1f f.1d 1r.5 4 2.1 c.r b.m q.s 8.1a t h.4 2.9 b.4 2.14 o.2 2.7 l.m 4 4.1d 2 4.1 3.4 3 2 p.2 3.a ",
    "8.2 d.5 3.5 3.5 a.6 2.6 2.16 2.d 7.36 u.8mb d.m 5.1c 6it.a5 3.2x 13.6 d.4 6 2.9 2.c 2.4 2 2.1 2.1 2.2z y.3u ",
    "7.61 j.1r 3.1h 15.9 3c 2 4 2 2 2 2.3h 11.p 7.p c.1j 3.u 4.5 3.5 3.5 3.2 10.b 2.p 2.i 2.1 2.e 3.d z.3e 1y.1g ",
    "7g.s 4.1c 1c.v e.t 6.11 b.t 3.z 5.7 2.4 17.4d j.z 5.z 5.13 9.1f d.a 2.e 2.6 2.1 2.a 2.e 2.6 2.1 4.1f d.8m ",
    "a.l b.7 p.5 2.15 2.8 1y.5 3 2.17 2.1 4 3.m b.m a.u 1u.i 2.1 b.l b.p 7.p 13.1j 7.1 1t g.3 2.2 2.s 17.s 4.s ",
    "10.7 2.r s.1h b.l b.i e.h 33.20 1k.1e e.1e e.z 13.r a.m 6z.15 7.1 h.5 1l.s b 9.l 17.h 1b.k s.m d.1g 1m.1 3 ",
    "e.18 x.o r.z u 3 9.y 4 d.1b f.3 m 2 10.h 2.o k.1 1s.6 2 2.3 2.e 2.9 8.1a 13.7 3.1 3.l 2.6 2.1 2.4 4 j d.4 ",
    "v.9 2 3 2.11 2 q 2 19.1g j.3 l.2 v.1b l.1 2 55.1a 16.3 11.1b l 1o.16 e 20.q 12.6 56.17 39.1r w.7 3 3.7 2.1 ",
    "2.n g 2 2n.7 3.12 h 2 t b.13 8 m c.19 k j.20 5k.w w.8 2.10 i 1e.t 35.6 2.1 2.11 m q.5 2.1 2.v f o.17 79.i g ",
    "2.c 2.x 3h 28.pl 2v.32 i.5f 219.2o g.tr i.5 q.32y 6.g6 5a2.t 1cz.fs 8.u i.26 i.t j.1b h.3 w.k 6.i c1.18 ",
    "5w.1r x.o 3.o 19.22 6 1v.c 1t.1 2 f.4 a.5p1 16.v 2q.36 6pq.3 2.6 2.1 2.82 g u.2 3 f.3 9.az 1s5.2y 6.c 4.8 ",
    "8.9 4mf.2c 2.1y 2.1 3 3.1 3.3 2.b 2 2.6 2.1s 2.3 3.7 2.6 2.r 2.3 2.4 2 4.6 2.9f 3.o 2.o 2.u 2.o 2.u 2.o 2.u ",
    "2.o 2.u 2.o 2.7 1f9.u 7.5 7a.1p 43.18 b.6 h 8y.t j.17 dh.r 6d.t 3 5s.u 2.2 2.1 2.6 3.4 a.1 69.6 2.3 2.1 2.e ",
    "2.5g 1o.1v 8 xh.3 2.q 2.1 2 3 2.9 2.3 2 2 7 5 2 2 2.2 2.1 2 3 2 2 2 2 2.1 2 3.3 2.6 2.3 2.3 2 2.9 2.g 6.2 ",
    "2.4 2.g 3et.wyn x.3dp 3.4gd 3.5rk g.h9 1wj.f1 15v.3t6 6.6jt"])]

/-- The characters that have a property. -/
def binary? (name : String) : Option CharSet :=
  (binaryTable.find? fun (names, _) => (words names).contains name.toList).map fun (_, table) => .ofTable table

end ScriptHost.Unicode
